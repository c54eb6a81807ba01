import Charybdis.Ctx.Step

/-!
# `this_ctx::yield` is restored before it returns

`yield` and `ole::offload` share a shape: hand a closure that sets `done` to someone else,
then `do wait(); while(!done);`. For `offload` the someone is a thread whose timing is
free, and an interrupt can get the caller out of the loop first (the Offload module).
For `yield` it is the `ios` queue, which runs its handlers in order: `restore` is posted
before the caller suspends, and anything that wakes the caller queues its resumption
behind it. So `ctx::wait` can throw out of `yield` only once `restore` has run.

The invariant `Safe` says, for each context, what makes that so over every run:

* the queue holds one resumption of a context while it is woken, and none otherwise;
* the frame of the `yield` or `offload` a context is inside is its own, and still live;
* inside `yield`, `restore` has run or is queued, and while the context is woken it is
  queued ahead of the resumption.

From it, over every run: a context that `ctx::wait` is unwinding out of `yield` finds
`done` set in a frame that is still live, and a context inside `yield` has `done` set or
`restore` queued.
-/

namespace Charybdis.Sched

/-! ## Sites, frames and the order of the queue -/

/-- The scheduler function a phase is inside, while the context is in one. -/
def Phase.site : Phase → Option Site
  | .waiting site | .woken site | .running (.ret site) | .running (.raise site) => some site
  | _ => none

/-- Woken: its resumption is queued. -/
def Phase.woken? : Phase → Bool
  | .woken _ => true
  | _ => false

/-- The frame of the `yield` or `offload` activation a site is inside. -/
def Site.frame : Site → Option FrameId
  | .yield f | .offload f => some f
  | _ => none

/-- `a` is queued, and before every `b`. -/
def ahead (a b : Handler) : List Handler → Prop
  | [] => False
  | h :: q => h = a ∨ h ≠ b ∧ ahead a b q

section
variable {a b : Handler}

theorem ahead_append {q : List Handler} (h : ahead a b q) (r : List Handler) :
    ahead a b (q ++ r) := by
  induction q with
  | nil => cases h
  | cons x q ih =>
    rcases h with h | ⟨hx, h⟩
    · exact .inl h
    · exact .inr ⟨hx, ih h⟩

theorem ahead_of_mem {q : List Handler} (ha : a ∈ q) (hb : b ∉ q) : ahead a b q := by
  induction q with
  | nil => cases ha
  | cons x q ih =>
    rcases List.mem_cons.mp ha with rfl | ha
    · exact .inl rfl
    · by_cases hx : x = a
      · exact .inl hx
      · exact .inr ⟨fun e => hb (e ▸ List.mem_cons_self x q),
          ih ha fun hb' => hb (List.mem_cons_of_mem x hb')⟩

theorem ahead_tail {x : Handler} {q : List Handler} (h : ahead a b (x :: q)) (hx : x ≠ a) :
    ahead a b q := by
  rcases h with h | ⟨-, h⟩
  · exact absurd h hx
  · exact h

end

/-! ## The invariant -/

/-- **What holds of each context** for `yield` to be restored before it returns. -/
structure Safe (s : State) (c : CtxId) : Prop where
  /-- One resumption of `c` is queued while it is woken, and none otherwise. -/
  resumes : s.queue.count (.resume c) = if (s.ctxs c).phase.woken? then 1 else 0
  /-- The frame of the `yield` or `offload` that `c` is inside is its own, and live. -/
  frame : ∀ site f, (s.ctxs c).phase.site = some site → site.frame = some f →
    f < s.nextFrame ∧ (s.frames f).owner = c ∧ (s.frames f).live = true
  /-- Inside `yield`, `restore` has run or is queued. -/
  queued : ∀ f, (s.ctxs c).phase = .waiting (.yield f) ∨
      (s.ctxs c).phase = .running (.ret (.yield f)) →
    (s.frames f).done = true ∨ .restore f ∈ s.queue
  /-- While `c` is woken inside `yield`, `restore` runs before the resumption. -/
  first : ∀ f, (s.ctxs c).phase = .woken (.yield f) →
    (s.frames f).done = true ∨ ahead (.restore f) (.resume c) s.queue
  /-- So `ctx::wait` throws out of `yield` only after `restore` has run. -/
  raised : ∀ f, (s.ctxs c).phase = .running (.raise (.yield f)) → (s.frames f).done = true

/-- Every context is safe. -/
def AllSafe (s : State) : Prop :=
  ∀ c, Safe s c

/-- What `c` needs to call `ctx::wait` inside `site`: the frame of `site` is its own and
live, and inside `yield` `restore` has run or is queued. -/
structure SiteOK (s : State) (c : CtxId) (site : Site) : Prop where
  frame : ∀ f, site.frame = some f →
    f < s.nextFrame ∧ (s.frames f).owner = c ∧ (s.frames f).live = true
  restore : ∀ f, site = .yield f → (s.frames f).done = true ∨ .restore f ∈ s.queue

/-- A site outside `yield` and `offload` needs nothing. -/
theorem SiteOK.plain {s : State} {c : CtxId} {site : Site} (h : site.frame = none) :
    SiteOK s c site :=
  ⟨fun _ e => (by rw [h] at e; cases e), fun _ e => (by subst e; cases h)⟩

/-! ## What the invariant of one context reads -/

section
variable {s s' : State} {c : CtxId}

/-- `Safe` reads the context's phase, the queue, the frames and `nextFrame`, which may grow. -/
theorem Safe.congr (h : Safe s c) (hp : (s'.ctxs c).phase = (s.ctxs c).phase)
    (hq : s'.queue = s.queue) (hf : s'.frames = s.frames) (hn : s.nextFrame ≤ s'.nextFrame) :
    Safe s' c := by
  obtain ⟨h₁, h₂, h₃, h₄, h₅⟩ := h
  refine ⟨?_, fun site f hs hf' => ?_, ?_, ?_, ?_⟩ <;> simp only [hp, hq, hf] at * <;>
    try assumption
  obtain ⟨hlt, ho⟩ := h₂ site f hs hf'
  exact ⟨Nat.lt_of_lt_of_le hlt hn, ho⟩

theorem Safe.setCtx_ne (h : Safe s c) {d : CtxId} (hne : c ≠ d) (x : Ctx) :
    Safe (s.setCtx d x) c :=
  h.congr (by rw [State.setCtx_ne _ _ hne]) rfl rfl (Nat.le_refl _)

theorem Safe.setCtx_phase (h : Safe s c) {x : Ctx} (hp : x.phase = (s.ctxs c).phase) :
    Safe (s.setCtx c x) c :=
  h.congr (by rw [State.setCtx_self, hp]) rfl rfl (Nat.le_refl _)

/-- Queueing anything but a resumption of `c` keeps `c` safe. -/
theorem Safe.post (h : Safe s c) {x : Handler} (hx : x ≠ .resume c) : Safe (s.post x) c := by
  have hc : (s.post x).queue.count (.resume c) = s.queue.count (.resume c) := by
    simp [List.count_append, List.count_singleton, hx]
  refine ⟨hc.trans h.resumes, h.frame, fun f hp => ?_, fun f hp => ?_, h.raised⟩
  · rcases h.queued f hp with hd | hm
    · exact .inl hd
    · exact .inr (by simp [hm])
  · rcases h.first f hp with hd | ha
    · exact .inl hd
    · exact .inr (ahead_append ha [x])

/-- Changing a frame without moving its owner, freeing it, or clearing `done`. -/
theorem Safe.setFrame (h : Safe s c) {f : FrameId} {fr : Frame}
    (ho : fr.owner = (s.frames f).owner) (hl : fr.live = (s.frames f).live)
    (hd : (s.frames f).done = true → fr.done = true) : Safe (s.setFrame f fr) c := by
  have hg : ∀ g, ((s.setFrame f fr).frames g).owner = (s.frames g).owner ∧
      ((s.setFrame f fr).frames g).live = (s.frames g).live ∧
      ((s.frames g).done = true → ((s.setFrame f fr).frames g).done = true) := by
    intro g
    by_cases e : g = f
    · subst e; simp only [State.setFrame_self]; exact ⟨ho, hl, hd⟩
    · simp [State.setFrame, e]
  refine ⟨h.resumes, fun site g hs hf => ?_, fun g hp => ?_, fun g hp => ?_,
    fun g hp => (hg g).2.2 (h.raised g hp)⟩
  · obtain ⟨hlt, ho', hl'⟩ := h.frame site g hs hf
    exact ⟨hlt, (hg g).1.trans ho', (hg g).2.1.trans hl'⟩
  · exact (h.queued g hp).imp (hg g).2.2 id
  · exact (h.first g hp).imp (hg g).2.2 id

/-- `Safe` reads only the frame of the site `c` is in. -/
theorem Safe.frames_eq (h : Safe s c) (hp : (s'.ctxs c).phase = (s.ctxs c).phase)
    (hq : s'.queue = s.queue) (hn : s.nextFrame ≤ s'.nextFrame)
    (hfr : ∀ site g, (s.ctxs c).phase.site = some site → site.frame = some g →
      s'.frames g = s.frames g) : Safe s' c := by
  have hy : ∀ g, (s.ctxs c).phase.site = some (.yield g) → s'.frames g = s.frames g :=
    fun g hs => hfr (.yield g) g hs rfl
  refine ⟨hq ▸ hp ▸ h.resumes, fun site g hs hf => ?_, fun g hg => ?_, fun g hg => ?_,
    fun g hg => ?_⟩
  · rw [hp] at hs
    rw [hfr site g hs hf]
    exact ⟨Nat.lt_of_lt_of_le (h.frame site g hs hf).1 hn, (h.frame site g hs hf).2⟩
  · rw [hp] at hg
    rw [hq, hy g (by rcases hg with hg | hg <;> rw [hg] <;> rfl)]
    exact h.queued g hg
  · rw [hp] at hg
    rw [hq, hy g (by rw [hg]; rfl)]
    exact h.first g hg
  · rw [hp] at hg
    rw [hy g (by rw [hg]; rfl)]
    exact h.raised g hg

/-- A frame made at `nextFrame` or above is none of `c`'s. -/
theorem Safe.setFrame_new (h : Safe s c) {f : FrameId} (hf : s.nextFrame ≤ f) (fr : Frame) :
    Safe (s.setFrame f fr) c :=
  h.frames_eq rfl rfl (Nat.le_refl _) fun site g hs hg => by
    have hne : g ≠ f := Nat.ne_of_lt (Nat.lt_of_lt_of_le (h.frame site g hs hg).1 hf)
    exact Function.update_noteq hne _ _

/-- Leaving a frame of another context. -/
theorem Safe.leave (h : Safe s c) {f : FrameId} (ho : (s.frames f).owner ≠ c) :
    Safe (leave f s) c :=
  h.frames_eq rfl rfl (Nat.le_refl _) fun site g hs hg => by
    have hne : g ≠ f := fun e => ho (e ▸ (h.frame site g hs hg).2.1)
    simp [Sched.leave, State.setFrame, hne]

/-- Moving `c`, with no resumption queued, to a phase outside `yield` and `offload` in
which it is not woken. -/
theorem Safe.plain (h0 : s.queue.count (.resume c) = 0) (x : Ctx)
    (hx : x.phase.woken? = false) (hs : ∀ site, x.phase.site = some site → site.frame = none) :
    Safe (s.setCtx c x) c := by
  have hy : ∀ g, x.phase.site ≠ some (.yield g) := fun g e => by cases hs _ e
  refine ⟨?_, fun site g e hg => ?_, fun g hg => ?_, fun g hg => ?_, fun g hg => ?_⟩ <;>
    simp only [State.setCtx_self, State.setCtx_queue, State.setCtx_frames] at *
  · rw [h0, hx]; rfl
  · rw [hs site e] at hg; cases hg
  · exact absurd (by rcases hg with hg | hg <;> rw [hg] <;> rfl) (hy g)
  · exact absurd (by rw [hg]; rfl) (hy g)
  · exact absurd (by rw [hg]; rfl) (hy g)

/-- An awake context has no resumption queued. -/
theorem Safe.count_zero (h : Safe s c) (hw : (s.ctxs c).phase.woken? = false) :
    s.queue.count (.resume c) = 0 := by
  rw [h.resumes, hw]; rfl

/-- A context whose `yield` frame has `done` set is safe as soon as its resumptions are
counted and its frame is its own and live. -/
theorem Safe.of_done
    (hres : s.queue.count (.resume c) = if (s.ctxs c).phase.woken? then 1 else 0)
    (hfr : ∀ site f, (s.ctxs c).phase.site = some site → site.frame = some f →
      f < s.nextFrame ∧ (s.frames f).owner = c ∧ (s.frames f).live = true)
    (hd : ∀ f, (s.ctxs c).phase.site = some (.yield f) → (s.frames f).done = true) :
    Safe s c :=
  ⟨hres, hfr, fun f hp => .inl (hd f (by rcases hp with hp | hp <;> rw [hp] <;> rfl)),
    fun f hp => .inl (hd f (by rw [hp]; rfl)), fun f hp => hd f (by rw [hp]; rfl)⟩

/-- Taking the front of the queue, when it is not `c`'s resumption nor the `restore` of
the `yield` `c` is in. -/
theorem Safe.pop (h : Safe s c) {x : Handler} {rest : List Handler}
    (hq : s.queue = x :: rest) (hx : x ≠ .resume c)
    (hr : ∀ f, x = .restore f → (s.ctxs c).phase.site ≠ some (.yield f)) :
    Safe { s with queue := rest } c := by
  have hc : rest.count (.resume c) = s.queue.count (.resume c) := by
    simp [hq, List.count_cons, hx]
  refine ⟨hc.trans h.resumes, h.frame, fun f hp => ?_, fun f hp => ?_, h.raised⟩
  · have hxf : x ≠ .restore f := fun e =>
      hr f e (by rcases hp with hp | hp <;> rw [hp] <;> rfl)
    rcases h.queued f hp with hd | hm
    · exact .inl hd
    · rw [hq] at hm
      exact .inr ((List.mem_cons.mp hm).resolve_left (Ne.symm hxf))
  · have hxf : x ≠ .restore f := fun e => hr f e (by rw [hp]; rfl)
    rcases h.first f hp with hd | ha
    · exact .inl hd
    · rw [hq] at ha
      exact .inr (ahead_tail ha hxf)

/-- Moving `c`, awake, into `ctx::wait` inside `site`. -/
theorem Safe.setSite (h : Safe s c) (hw : (s.ctxs c).phase.woken? = false) {x : Ctx}
    {site : Site} (hx : x.phase = .waiting site ∨ x.phase = .running (.ret site))
    (hs : SiteOK s c site) : Safe (s.setCtx c x) c := by
  have hsite : x.phase.site = some site := by rcases hx with hx | hx <;> rw [hx] <;> rfl
  refine ⟨?_, fun site' g e hg => ?_, fun g hg => ?_, fun g hg => ?_, fun g hg => ?_⟩ <;>
    simp only [State.setCtx_self, State.setCtx_queue, State.setCtx_frames] at *
  · rw [h.resumes, hw]; rcases hx with hx | hx <;> rw [hx] <;> rfl
  · rw [hsite] at e; cases e; exact hs.frame g hg
  · have : site = .yield g := by
      rcases hg with hg | hg <;> rcases hx with hx | hx <;> rw [hx] at hg <;> cases hg <;> rfl
    exact hs.restore g this
  · rcases hx with hx | hx <;> rw [hx] at hg <;> cases hg
  · rcases hx with hx | hx <;> rw [hx] at hg <;> cases hg

end

/-! ## Every function of the scheduler keeps every context safe -/

section
variable {s : State}

theorem AllSafe.setCtx_phase (h : AllSafe s) {c : CtxId} {x : Ctx}
    (hp : x.phase = (s.ctxs c).phase) : AllSafe (s.setCtx c x) := fun d => by
  by_cases e : d = c
  · subst e; exact (h d).setCtx_phase hp
  · exact (h d).setCtx_ne e x

theorem wake_safe (h : AllSafe s) (c : CtxId) : AllSafe (wake c s) := by
  unfold wake
  split
  · next site hph =>
    intro d
    by_cases e : d = c
    · subst e
      have h0 : s.queue.count (.resume d) = 0 := by simpa [hph, Phase.woken?] using (h d).resumes
      refine ⟨?_, fun site' g hs hg => ?_, fun g hg => ?_, fun g hg => ?_, fun g hg => ?_⟩ <;>
        simp only [State.post_ctxs, State.setCtx_self, State.post_queue, State.post_frames,
          State.setCtx_queue, State.setCtx_frames] at *
      · simp [List.count_append, h0, Phase.woken?]
      · exact (h d).frame site' g (by rw [hph]; exact hs) hg
      · rcases hg with hg | hg <;> cases hg
      · cases hg
        rcases (h d).queued g (.inl hph) with hd | hm
        · exact .inl hd
        · exact .inr (ahead_append (ahead_of_mem hm (List.count_eq_zero.mp h0)) _)
      · cases hg
    · exact ((h d).setCtx_ne e _).post (by simpa using Ne.symm e)
  · exact h

theorem AllSafe.post (h : AllSafe s) {x : Handler} (hx : ∀ c, x ≠ .resume c) :
    AllSafe (s.post x) :=
  fun c => (h c).post (hx c)

/-- Moving `c`, awake, to a phase outside `yield` and `offload` in which it is not woken. -/
theorem AllSafe.plain (h : AllSafe s) {c : CtxId} (hw : (s.ctxs c).phase.woken? = false)
    (x : Ctx) (hx : x.phase.woken? = false)
    (hs : ∀ site, x.phase.site = some site → site.frame = none) : AllSafe (s.setCtx c x) :=
  fun d => by
    by_cases e : d = c
    · subst e; exact Safe.plain ((h d).count_zero hw) x hx hs
    · exact (h d).setCtx_ne e x

/-- Changing fields that `Safe` does not read. -/
theorem AllSafe.congr (h : AllSafe s) {s' : State} (hc : s'.ctxs = s.ctxs)
    (hq : s'.queue = s.queue) (hf : s'.frames = s.frames) (hn : s.nextFrame ≤ s'.nextFrame) :
    AllSafe s' :=
  fun c => (h c).congr (by rw [hc]) hq hf hn

/-! ### Notes and interrupts -/

theorem wake_running {c d : CtxId} {k : Cont} (hp : (s.ctxs d).phase = .running k) :
    ((wake c s).ctxs d).phase = .running k := by
  unfold wake
  split
  · next site hph =>
    by_cases e : d = c
    · subst e; rw [hp] at hph; cases hph
    · simpa [State.setCtx_ne _ _ e] using hp
  · exact hp

theorem setCtx_running {c d : CtxId} {x : Ctx} {k : Cont} (hx : x.phase = (s.ctxs c).phase)
    (hp : (s.ctxs d).phase = .running k) : ((s.setCtx c x).ctxs d).phase = .running k := by
  by_cases e : d = c
  · subst e; simpa [hx] using hp
  · simpa [State.setCtx_ne _ _ e] using hp

theorem note_running {c d : CtxId} {k : Cont} (hp : (s.ctxs d).phase = .running k) :
    ((note c s).ctxs d).phase = .running k := by
  unfold note
  dsimp only
  split
  · exact setCtx_running rfl hp
  · exact wake_running (setCtx_running rfl hp)

theorem notifyAdjoindre_running {c d : CtxId} {k : Cont} (hp : (s.ctxs d).phase = .running k) :
    ((notifyAdjoindre c s).ctxs d).phase = .running k := by
  unfold notifyAdjoindre
  split
  · exact note_running hp
  · exact hp

theorem interrupt_running {c d : CtxId} {k : Cont} (hp : (s.ctxs d).phase = .running k) :
    ((interrupt c s).ctxs d).phase = .running k :=
  wake_running (setCtx_running rfl hp)

theorem note_safe (h : AllSafe s) (c : CtxId) : AllSafe (note c s) := by
  have h' := h.setCtx_phase (c := c)
    (x := { s.ctxs c with notes := (s.ctxs c).notes + 1, noted := (s.ctxs c).noted + 1 }) rfl
  unfold note
  dsimp only
  split
  · exact h'
  · exact wake_safe h' c

theorem notify_safe (h : AllSafe s) (c : CtxId) : AllSafe (notify c s) :=
  note_safe h c

theorem interrupt_safe (h : AllSafe s) (c : CtxId) : AllSafe (interrupt c s) :=
  wake_safe (h.setCtx_phase (c := c) (x := { s.ctxs c with interrupted := true }) rfl) c

theorem notifyAdjoindre_safe (h : AllSafe s) (c : CtxId) : AllSafe (notifyAdjoindre c s) := by
  unfold notifyAdjoindre
  split
  · exact notify_safe h _
  · exact h

/-! ### Waits -/

theorem wait_safe (h : AllSafe s) {c : CtxId} {site : Site}
    (hw : (s.ctxs c).phase.woken? = false) (hs : SiteOK s c site) :
    AllSafe (wait c site s) := by
  unfold wait
  dsimp only
  split
  · intro d
    by_cases e : d = c
    · subst e; exact (h d).setSite hw (.inr rfl) hs
    · exact (h d).setCtx_ne e _
  · intro d
    by_cases e : d = c
    · subst e; exact ((h d).setSite hw (.inl rfl) hs).congr rfl rfl rfl (Nat.le_refl _)
    · exact ((h d).setCtx_ne e _).congr rfl rfl rfl (Nat.le_refl _)

theorem ThisCtx.wait_safe (h : AllSafe s) {c : CtxId} {site : Site}
    (hw : (s.ctxs c).phase.woken? = false) (hs : SiteOK s c site) :
    AllSafe (ThisCtx.wait c site s) :=
  Sched.wait_safe (h.setCtx_phase (c := c) (x := { s.ctxs c with alarm := none }) rfl)
    (by simpa using hw) ⟨hs.1, hs.2⟩

theorem ThisCtx.waitFor_safe (h : AllSafe s) {c : CtxId} (dur : Nat)
    (hw : (s.ctxs c).phase.woken? = false) : AllSafe (ThisCtx.waitFor c dur s) :=
  Sched.wait_safe (h.setCtx_phase (c := c) (x := { s.ctxs c with alarm := some (s.clock + dur) })
    rfl) (by simpa using hw) (SiteOK.plain (rfl : Site.waitFor.frame = none))

theorem ThisCtx.waitUntil_safe (h : AllSafe s) {c : CtxId} (tp : Nat) (site : Site)
    (hw : (s.ctxs c).phase.woken? = false) (hs : site.frame = none) :
    AllSafe (ThisCtx.waitUntil c tp site s) :=
  Sched.wait_safe (h.setCtx_phase (c := c) (x := { s.ctxs c with alarm := some tp }) rfl)
    (by simpa using hw) (SiteOK.plain hs)

/-- **`yield` posts `restore` before it suspends.** -/
theorem ThisCtx.yield_safe (h : AllSafe s) {c : CtxId} (hw : (s.ctxs c).phase.woken? = false) :
    AllSafe (ThisCtx.yield c s) := by
  have h₁ : AllSafe
      { s.setFrame s.nextFrame (Frame.fresh c) with nextFrame := s.nextFrame + 1 } :=
    fun d => ((h d).setFrame_new (Nat.le_refl _) _).congr rfl rfl rfl (Nat.le_succ _)
  refine ThisCtx.wait_safe (h₁.post fun _ => by simp) (by simpa using hw)
    ⟨fun g hg => ?_, fun g hg => .inr ?_⟩
  · cases hg
    exact ⟨Nat.lt_succ_self _, by simp [Frame.fresh], by simp [Frame.fresh]⟩
  · cases hg
    simp

theorem ThisCtx.interruptionPoint_safe (h : AllSafe s) (c : CtxId) :
    AllSafe (ThisCtx.interruptionPoint c s) :=
  h.setCtx_phase rfl

/-! ### `context` and `ole` -/

theorem join_safe (h : AllSafe s) {j : CtxId} (d : CtxId) {site : Site}
    (hp : (s.ctxs j).phase = .running .user) (hs : site.frame = none) :
    AllSafe (join j d site s) := by
  unfold join
  split
  · exact h.plain (by rw [hp]; rfl) _ rfl fun _ e => by cases e; exact hs
  · refine ThisCtx.wait_safe
      (h.setCtx_phase (c := d) (x := { s.ctxs d with adjoindre := some j }) rfl) ?_
      (SiteOK.plain hs)
    by_cases e : j = d
    · subst e; simp [hp, Phase.woken?]
    · simp [State.setCtx_ne _ _ e, hp, Phase.woken?]

theorem destroy_safe (h : AllSafe s) {j : CtxId} (d : CtxId)
    (hp : (s.ctxs j).phase = .running .user) : AllSafe (destroy j d s) :=
  join_safe (interrupt_safe h d) d (interrupt_running hp) rfl

theorem spawn_safe (h : AllSafe s) {d : CtxId} (hd : (s.ctxs d).phase = .absent) :
    AllSafe (spawn d s) :=
  (h.plain (by rw [hd]; rfl) Ctx.fresh rfl fun _ e => by cases e).post fun _ => by simp

theorem offload_safe (h : AllSafe s) {c : CtxId} (hw : (s.ctxs c).phase.woken? = false) :
    AllSafe (offload c s) := by
  have h₁ : AllSafe { s.setFrame s.nextFrame (Frame.fresh c) with
      nextFrame := s.nextFrame + 1, ole := s.ole ++ [s.nextFrame] } :=
    fun d => ((h d).setFrame_new (Nat.le_refl _) _).congr rfl rfl rfl (Nat.le_succ _)
  refine ThisCtx.wait_safe h₁ (by simpa using hw) ⟨fun g hg => ?_, fun g hg => by cases hg⟩
  cases hg
  exact ⟨Nat.lt_succ_self _, by simp [Frame.fresh], by simp [Frame.fresh]⟩

theorem toUser_safe (h : AllSafe s) {c : CtxId} (hw : (s.ctxs c).phase.woken? = false) :
    AllSafe (toUser c s) :=
  h.plain hw _ rfl fun _ e => by cases e

/-- Leaving the frame of the site `c` is in, and going back to its own code. -/
theorem leave_toUser_safe (h : AllSafe s) {c : CtxId} {site : Site} {f : FrameId}
    (hs : (s.ctxs c).phase.site = some site) (hf : site.frame = some f)
    (hw : (s.ctxs c).phase.woken? = false) : AllSafe (toUser c (leave f s)) := by
  have ho := ((h c).frame site f hs hf).2.1
  intro d
  by_cases e : d = c
  · subst e
    exact Safe.plain (s := leave f s) ((h d).count_zero hw) _ rfl
      fun _ e => by cases e
  · exact ((h d).leave (by rw [ho]; exact Ne.symm e)).setCtx_ne e _

/-! ### Carrying on after `ctx::wait` -/

theorem afterWait_safe (h : AllSafe s) {c : CtxId} {site : Site}
    (hp : (s.ctxs c).phase = .running (.ret site)) : AllSafe (afterWait c site s) := by
  have hw : (s.ctxs c).phase.woken? = false := by rw [hp]; rfl
  cases site with
  | wait | waitFor | waitUntil _ | join _ => exact toUser_safe h hw
  | sleepUntil tp =>
    dsimp only [afterWait]
    split
    · exact toUser_safe h hw
    · exact ThisCtx.waitUntil_safe h tp _ hw rfl
  | dtor d =>
    exact toUser_safe (h.setCtx_phase (c := d) (x := { s.ctxs d with freed := true }) rfl)
      (by rw [setCtx_running (c := d) (x := { s.ctxs d with freed := true }) rfl hp]; rfl)
  | yield f =>
    dsimp only [afterWait]
    split
    · exact leave_toUser_safe h (by rw [hp]; rfl) (by rfl) hw
    · exact ThisCtx.wait_safe h hw ⟨fun g hg => (h c).frame _ g (by rw [hp]; rfl) hg,
        fun g hg => by cases hg; exact (h c).queued f (.inr hp)⟩
  | offload f =>
    dsimp only [afterWait]
    split
    · exact leave_toUser_safe h (by rw [hp]; rfl) (by rfl) hw
    · exact ThisCtx.wait_safe h hw ⟨fun g hg => (h c).frame _ g (by rw [hp]; rfl) hg,
        fun g hg => by cases hg⟩

theorem afterRaise_safe (h : AllSafe s) {c : CtxId} {site : Site}
    (hp : (s.ctxs c).phase = .running (.raise site)) : AllSafe (afterRaise c site s) := by
  have hw : (s.ctxs c).phase.woken? = false := by rw [hp]; rfl
  cases site with
  | wait | waitFor | waitUntil _ | sleepUntil _ | join _ => exact toUser_safe h hw
  | dtor d => exact h.congr rfl rfl rfl (Nat.le_refl _)
  | yield f | offload f => exact leave_toUser_safe h (by rw [hp]; rfl) (by rfl) hw

theorem carryOn_safe (h : AllSafe s) {c : CtxId} {s' : State} (hs : carryOn c s = some s') :
    AllSafe s' := by
  unfold carryOn at hs
  split at hs
  · rename_i site hph; cases hs; exact afterWait_safe h hph
  · rename_i site hph; cases hs; exact afterRaise_safe h hph
  · cases hs

/-! ### Handlers -/

theorem kick_safe (h : AllSafe s) (f : FrameId) : AllSafe (kick f s) := by
  unfold kick
  dsimp only
  split
  · exact notify_safe (fun c => by refine (h c).setFrame ?_ ?_ fun _ => ?_ <;> rfl) _
  · exact fun c => by refine (h c).setFrame ?_ ?_ id <;> rfl

theorem workerDone_safe (h : AllSafe s) (f : FrameId) (threw : Bool) :
    AllSafe (workerDone f threw s) := by
  have h' : AllSafe (s.setFrame f (if (s.frames f).live then
      { s.frames f with eptr := (s.frames f).eptr || threw }
      else { s.frames f with stale := true })) := fun c => by
    split <;> refine (h c).setFrame ?_ ?_ id <;> rfl
  refine AllSafe.post (x := .kick f) ?_ fun _ => by simp
  exact h'.congr rfl rfl rfl (Nat.le_refl _)

theorem atexit_safe (h : AllSafe s) {c : CtxId} {k : Cont} (hp : (s.ctxs c).phase = .running k) :
    AllSafe (atexit c s) := by
  have hp' := notifyAdjoindre_running (c := c) hp
  exact AllSafe.congr ((notifyAdjoindre_safe h c).plain (by rw [hp']; rfl) _ (by rfl)
    fun _ e => by cases e) rfl rfl rfl (Nat.le_refl _)

theorem enter_safe (h : AllSafe s) {c : CtxId} {s' : State} (hs : enter c s = some s') :
    AllSafe s' := by
  unfold enter at hs
  dsimp only at hs
  split at hs
  · rename_i hph
    cases hs
    have h' : AllSafe { s.setCtx c { s.ctxs c with
        notes := 1, phase := .running .user,
        coalesced := (s.ctxs c).coalesced + ((s.ctxs c).notes - 1).toNat } with
      current := some c } :=
      AllSafe.congr (h.plain (by rw [hph]; rfl) _ (by rfl) fun _ e => by cases e)
        rfl rfl rfl (Nat.le_refl _)
    split
    · exact atexit_safe h' (k := .user) (by simp)
    · exact h'
  · cases hs

/-- Taking from the queue a handler that is no resumption and no `restore`. -/
theorem AllSafe.pop (h : AllSafe s) {x : Handler} {rest : List Handler}
    (hq : s.queue = x :: rest) (hx : ∀ c, x ≠ .resume c) (hr : ∀ f, x ≠ .restore f) :
    AllSafe { s with queue := rest } :=
  fun c => (h c).pop hq (hx c) fun f e => absurd e (hr f)

/-- What `resumeAt` makes of the context it resumes: running inside the same site. -/
theorem resumeAt_eq (c : CtxId) (site : Site) (s : State) :
    ∃ x : Ctx, resumeAt c site s = { s.setCtx c x with current := some c } ∧
      x.phase.site = some site ∧ x.phase.woken? = false :=
  ⟨_, rfl, by simp only [Ctx.interruptionPoint]; split <;> rfl, rfl⟩

/-- **The resumption of `c` runs only once `restore` has.** `c` is woken, so its
resumption is the only one queued, and inside `yield` `restore` was ahead of it. -/
theorem resume_pop_safe (h : AllSafe s) {d : CtxId} {rest : List Handler} {s' : State}
    (hq : s.queue = .resume d :: rest) (hs : resume d { s with queue := rest } = some s') :
    AllSafe s' := by
  unfold resume at hs
  split at hs
  · rename_i site hph
    cases hs
    obtain ⟨x, he, hxs, hxw⟩ := resumeAt_eq d site { s with queue := rest }
    rw [he]
    intro c
    by_cases e : c = d
    · subst e
      have hd := h c
      have h0 : rest.count (.resume c) = 0 := by
        have := hd.resumes
        rw [hq, hph, List.count_cons_self] at this
        simpa [Phase.woken?] using this
      refine Safe.of_done (by simpa [hxw] using h0) (fun site' g hs hg => ?_) fun g hg => ?_
      · rw [State.setCtx_self, hxs] at hs; cases hs
        exact hd.frame site g (by rw [hph]; rfl) hg
      · rw [State.setCtx_self, hxs] at hg; cases hg
        rcases hd.first g hph with hd | ha
        · exact hd
        · rw [hq] at ha
          rcases ha with ha | ⟨ha, -⟩ <;> simp at ha
    · exact (((h c).pop hq (by simpa using Ne.symm e) fun _ e => by cases e).setCtx_ne e x).congr
        rfl rfl rfl (Nat.le_refl _)
  · cases hs

/-- **`restore` sets `done` in the frame of the `yield` waiting on it.** -/
theorem restore_pop_safe (h : AllSafe s) {f : FrameId} {rest : List Handler}
    (hq : s.queue = .restore f :: rest) : AllSafe (restore f { s with queue := rest }) := by
  unfold restore
  dsimp only
  refine notify_safe (fun c => ?_) _
  by_cases hy : (s.ctxs c).phase.site = some (.yield f)
  · obtain ⟨hlt, ho, hl⟩ := (h c).frame _ f hy rfl
    refine Safe.of_done ?_ (fun site g hs hg => ?_) fun g hg => ?_
    · simpa [hq] using (h c).resumes
    · change (s.ctxs c).phase.site = _ at hs
      rw [hy] at hs; cases hs; cases hg
      simpa [State.setFrame, hl] using ⟨hlt, ho⟩
    · change (s.ctxs c).phase.site = _ at hg
      rw [hy] at hg; cases hg
      simp [State.setFrame, hl]
  · exact ((h c).pop hq (by simp) fun g e => by cases e; exact hy).setFrame
      (by split <;> rfl) (by split <;> rfl) fun hd => by split; rfl; exact hd

theorem runNext_safe (h : AllSafe s) {s' : State} (hs : runNext s = some s') : AllSafe s' := by
  unfold runNext at hs
  split at hs
  · rename_i x rest hq
    cases x with
    | spawn d => exact enter_safe (h.pop hq (by simp) (by simp)) hs
    | resume d => exact resume_pop_safe h hq hs
    | notify d => cases hs; exact notify_safe (h.pop hq (by simp) (by simp)) d
    | restore f => cases hs; exact restore_pop_safe h hq
    | kick f => cases hs; exact kick_safe (h.pop hq (by simp) (by simp)) f
  · cases hs

/-! ### Steps -/

theorem expire_safe (h : AllSafe s) {c : CtxId} {s' : State} (hs : expire c s = some s') :
    AllSafe s' := by
  unfold expire at hs
  split at hs
  · rename_i site t hph _
    split at hs
    · cases hs
      have hw := wake_safe h c
      simp only [wake, hph] at hw
      exact hw
    · cases hs
  · cases hs

theorem call_safe (h : AllSafe s) {c : CtxId} {s' : State} (o : Op)
    (hp : (s.ctxs c).phase = .running .user) (hs : call c o s = some s') : AllSafe s' := by
  have hw : (s.ctxs c).phase.woken? = false := by rw [hp]; rfl
  cases o with
  | notify d => simp only [call] at hs; split at hs <;> cases hs; exact notify_safe h d
  | interrupt d => simp only [call] at hs; split at hs <;> cases hs; exact interrupt_safe h d
  | wait => cases hs; exact ThisCtx.wait_safe h hw (SiteOK.plain rfl)
  | waitFor dur => cases hs; exact ThisCtx.waitFor_safe h dur hw
  | waitUntil tp => cases hs; exact ThisCtx.waitUntil_safe h tp (.waitUntil tp) hw rfl
  | sleepUntil tp => cases hs; exact ThisCtx.waitUntil_safe h tp (.sleepUntil tp) hw rfl
  | join d => simp only [call] at hs; split at hs <;> cases hs; exact join_safe h d hp rfl
  | destroy d => simp only [call] at hs; split at hs <;> cases hs; exact destroy_safe h d hp
  | yield => cases hs; exact ThisCtx.yield_safe h hw
  | offload => cases hs; exact offload_safe h hw
  | spawn d =>
    simp only [call] at hs; split at hs <;> cases hs
    rename_i hd; exact spawn_safe h hd
  | interruptionPoint => cases hs; exact ThisCtx.interruptionPoint_safe h c
  | exit => cases hs; exact atexit_safe h hp

theorem AllSafe.step (h : AllSafe s) {a : Action} {s' : State} (hs : Sched.step s a = some s') :
    AllSafe s' := by
  cases (step_moves hs).2 with
  | call o _ hp hc => exact call_safe h o hp hc
  | carryOn _ hc => exact carryOn_safe h hc
  | run _ hn => exact runNext_safe h hn
  | expire he => exact expire_safe h he
  | tick | workerPop _ _ => exact h.congr rfl rfl rfl (Nat.le_refl _)
  | signal _ _ => exact h.post fun _ => by simp
  | workerDone threw _ => exact workerDone_safe h _ threw

/-- Every context starts made or absent, outside any scheduler function, with nothing but
`spawn` closures queued. -/
theorem allSafe_init (cs : List CtxId) : AllSafe (State.init cs) := fun c => by
  have ⟨hs, hw⟩ : ((State.init cs).ctxs c).phase.site = none ∧
      ((State.init cs).ctxs c).phase.woken? = false := by
    simp only [State.init]; split <;> exact ⟨rfl, rfl⟩
  refine Safe.of_done ?_ (fun _ _ e => by rw [hs] at e; cases e) fun _ e => by rw [hs] at e; cases e
  rw [hw, if_neg Bool.false_ne_true]
  exact List.count_eq_zero.mpr (by simp [State.init])

theorem allSafe_reachable {s : State} (hr : Reachable s) : AllSafe s := by
  induction hr with
  | init cs => exact allSafe_init cs
  | step a _ hs ih => exact ih.step hs

end

/-! ## Every run -/

/-- **`ctx::wait` throws out of `yield` only once `restore` has run.** In every reachable
state, a context that `ctx::wait` is unwinding out of `yield` finds `done` set in its own
frame, which is still live; and a context woken inside `yield` has `done` set, or its
`restore` queued ahead of its resumption. -/
theorem yield_restored_first {s : State} (hr : Reachable s) (c : CtxId) (f : FrameId) :
    ((s.ctxs c).phase = .running (.raise (.yield f)) →
      (s.frames f).done = true ∧ (s.frames f).owner = c ∧ (s.frames f).live = true) ∧
    ((s.ctxs c).phase = .woken (.yield f) →
      (s.frames f).done = true ∨ ahead (.restore f) (.resume c) s.queue) := by
  have h := allSafe_reachable hr c
  exact ⟨fun hp => ⟨h.raised f hp, (h.frame (.yield f) f (by rw [hp]; rfl) rfl).2⟩,
    h.first f⟩

/-- Interrupting a context inside `yield` queues its resumption behind `restore`. -/
theorem yield_interrupted_restore_ahead :
    ∃ s, run (State.init [0, 1]) [.run, .op .yield, .run, .op (.interrupt 0)] = some s ∧
      (s.ctxs 0).phase = .woken (.yield 0) ∧ (s.frames 0).done = false ∧
      ahead (.restore 0) (.resume 0) s.queue := by
  have hr := run_reachable (.init [0, 1])
    (rfl : run (State.init [0, 1]) [.run, .op .yield, .run, .op (.interrupt 0)] = some _)
  exact ⟨_, rfl, rfl, rfl, ((yield_restored_first hr 0 0).2 rfl).resolve_left (by decide)⟩

/-- **A queued resumption always resumes.** In every reachable state, when the `ios` loop
reaches the alarm handler of `c`, `c` is woken, no second resumption of `c` is queued,
and the handler runs: the scheduler never resumes a context that is not suspended. -/
theorem resumption_resumes {s : State} (hr : Reachable s) {c : CtxId} {rest : List Handler}
    (hq : s.queue = .resume c :: rest) :
    (∃ site, (s.ctxs c).phase = .woken site) ∧ .resume c ∉ rest ∧
      ∃ s', runNext s = some s' := by
  have hres := (allSafe_reachable hr c).resumes
  rw [hq, List.count_cons_self] at hres
  cases hw : (s.ctxs c).phase with
  | woken site =>
    rw [hw] at hres
    refine ⟨⟨site, rfl⟩, List.count_eq_zero.mp (by simpa [Phase.woken?] using hres),
      resumeAt c site { s with queue := rest }, ?_⟩
    simp only [runNext, hq, runHandler, resume, hw]
  | _ => rw [hw] at hres; simp [Phase.woken?] at hres

/-- The resumption an interrupt queued behind `restore` runs once `restore` has. -/
theorem resumption_after_restore :
    ∃ s, run (State.init [0, 1])
        [.run, .op .yield, .run, .op (.interrupt 0), .op .exit, .run] = some s ∧
      s.queue = [.resume 0] ∧ (s.frames 0).done = true ∧ ∃ s', runNext s = some s' := by
  have hr := run_reachable (.init [0, 1]) (rfl : run (State.init [0, 1])
    [.run, .op .yield, .run, .op (.interrupt 0), .op .exit, .run] = some _)
  exact ⟨_, rfl, rfl, rfl, (resumption_resumes hr rfl).2.2⟩

end Charybdis.Sched
