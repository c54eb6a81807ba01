import Mathlib.Data.BitVec
import Charybdis.Lemmas

/-!
# `m::event::conforms`: the syntactic checks of an event

`conforms(e)` runs a fixed list of checks on an event and sets one bit of a 64-bit
`report` per failed check. The last two checks are loops over `prev_events` and
`prev_state`, each a nested pair of loops with hand-kept counters `i` and `j`: the outer
loop flags an entry whose id is the event's own, the inner one flags an entry whose id
another position repeats.

The `m::id` parsers and the `json` accessors are not under src/. They are the fields of
`Syntax`, and every result here holds whatever they return; of them only `at(0)` is
modelled with the exception it may throw.

`conforms_prev_flags`: when every entry has a first element, `conforms` returns a report,
and its four `prev` bits are exactly the list predicates: `DUP_PREV_EVENT` is set iff two
different positions of `prev_events` have equal ids, `SELF_PREV_EVENT` iff an entry's
unquoted id is the event's, and likewise for `prev_state`. The proof goes through a step
lemma per loop body and a run lemma per loop (`innerLoop_ok`, `outerLoop_ok`), and the
fact that the checks before the loops never touch those bits (`checks_has`).

`conforms_raises_without_first_element`: that condition is also necessary. One entry
without a first element, such as an empty array, makes both constructors raise, whatever
the accessors do with the other members.

`hasUint_code`: the `uint` overload of `has` compares the masked report with the code
instead of with zero, so it is not the `code` overload.
-/

namespace Charybdis.M

/-- `event::conforms::code`, in the order of `event_conforms_reflects`, so that a code's
value is its constructor index. -/
inductive Code
  | invalidOrMissingEventId
  | invalidOrMissingRoomId
  | invalidOrMissingSenderId
  | missingType
  | missingOrigin
  | invalidOrigin
  | invalidOrMissingRedactsId
  | missingMembership
  | invalidMembership
  | missingContentMembership
  | invalidContentMembership
  | missingPrevEvents
  | missingPrevState
  | depthNegative
  | depthZero
  | missingSignatures
  | missingOriginSignature
  | mismatchOriginSender
  | mismatchOriginEventId
  | selfRedacts
  | selfPrevEvent
  | selfPrevState
  | dupPrevEvent
  | dupPrevState
  deriving DecidableEq, Repr

theorem Code.toCtorIdx_lt (c : Code) : c.toCtorIdx < 64 := by
  cases c <;> decide

theorem Code.toCtorIdx_inj {c d : Code} : c.toCtorIdx = d.toCtorIdx ↔ c = d :=
  ⟨fun h => by rw [← Code.ofNat_toCtorIdx c, h, Code.ofNat_toCtorIdx], congrArg _⟩

/-! ## The report -/

/-- `uint64_t report`. -/
abbrev Report := BitVec 64

/-- `conforms::set(code)`: `report |= (1UL << code)`. -/
def set (c : Code) (report : Report) : Report :=
  report ||| 1#64 <<< c.toCtorIdx

/-- `conforms::del(code)`: `report &= ~(1UL << code)`. -/
def del (c : Code) (report : Report) : Report :=
  report &&& ~~~(1#64 <<< c.toCtorIdx)

/-- `conforms::has(const code &)`: `report & (1UL << code)`, as a `bool`. -/
def has (c : Code) (report : Report) : Bool :=
  report &&& 1#64 <<< c.toCtorIdx != 0#64

/-- `conforms::has(const uint &)`: `(report & (1UL << code)) == code`. -/
def hasUint (code : Nat) (report : Report) : Bool :=
  report &&& 1#64 <<< code == BitVec.ofNat 64 code

/-- `1UL << code` is the power of two `BitVec.twoPow`, which is not zero for a code. -/
theorem twoPow_code_ne_zero (c : Code) : BitVec.twoPow 64 c.toCtorIdx ≠ 0#64 := fun h => by
  have := congrArg (BitVec.getLsbD · c.toCtorIdx) h
  simp [c.toCtorIdx_lt] at this

/-- `has(code)` reads bit `code` of the report. -/
theorem has_eq_getLsbD (c : Code) (report : Report) :
    has c report = report.getLsbD c.toCtorIdx := by
  show (report &&& BitVec.twoPow 64 c.toCtorIdx != 0#64) = _
  rw [BitVec.and_twoPow]
  cases report.getLsbD c.toCtorIdx <;> simp [twoPow_code_ne_zero]

@[simp] theorem has_set (c d : Code) (report : Report) :
    has c (set d report) = (decide (c = d) || has c report) := by
  rw [has_eq_getLsbD, has_eq_getLsbD]
  show (report ||| BitVec.twoPow 64 d.toCtorIdx).getLsbD c.toCtorIdx = _
  rw [BitVec.getLsbD_or, BitVec.getLsbD_twoPow, Bool.or_comm]
  simp [d.toCtorIdx_lt, eq_comm, Code.toCtorIdx_inj]

@[simp] theorem has_zero (c : Code) : has c 0#64 = false := by
  simp [has_eq_getLsbD]

/-- `report |= code` when `cond`, as each check of `conforms` does. -/
def setIf (cond : Bool) (c : Code) (report : Report) : Report :=
  if cond then set c report else report

@[simp] theorem has_setIf (cond : Bool) (c d : Code) (report : Report) :
    has c (setIf cond d report) = ((cond && decide (c = d)) || has c report) := by
  unfold setIf; cases cond <;> simp

/-- **`has(uint)` is not `has(code)`.** It compares the masked report with the code itself,
not with zero: at code `0` it is the negation of `has(code)`, and at every other code it is
false, whatever the report. -/
theorem hasUint_code (c : Code) (report : Report) :
    hasUint c.toCtorIdx report = (c.toCtorIdx == 0 && !has c report) := by
  have hc : c.toCtorIdx < 2 ^ 64 := lt_trans c.toCtorIdx_lt (by decide)
  have hp : 2 ^ c.toCtorIdx < 2 ^ 64 := Nat.pow_lt_pow_right (by decide) c.toCtorIdx_lt
  rw [has_eq_getLsbD]
  show (report &&& BitVec.twoPow 64 c.toCtorIdx == BitVec.ofNat 64 c.toCtorIdx) = _
  rw [BitVec.and_twoPow]
  cases report.getLsbD c.toCtorIdx with
  | false =>
    -- the masked report is `0`, equal to the code only at code `0`
    rw [Bool.eq_iff_iff]
    simp only [Bool.false_eq_true, ite_false, Bool.not_false, Bool.and_true, beq_iff_eq,
      BitVec.toNat_eq, BitVec.toNat_ofNat, Nat.zero_mod, Nat.mod_eq_of_lt hc]
    omega
  | true =>
    -- the masked report is `2 ^ code`, never the code
    simp only [ite_true, Bool.not_true, Bool.and_false, beq_eq_false_iff_ne, ne_eq,
      BitVec.toNat_eq, BitVec.toNat_twoPow, BitVec.toNat_ofNat, Nat.mod_eq_of_lt hc,
      Nat.mod_eq_of_lt hp]
    exact (Nat.lt_two_pow _).ne'

example : has .invalidOrMissingEventId 0#64 = false ∧ hasUint 0 0#64 = true := by decide

/-! ## The event -/

/-- The sigil an `m::id` is checked against. -/
inductive IdKind
  | event
  | room
  | user
  deriving DecidableEq, Repr

/-- What `conforms` calls that is not under src/. Entries of `prev_events` and
`prev_state` are of type `A`, exceptions of type `E`. Only `at(0)` is given a way to throw:
`json::object::get` on `signatures` and `content`, and `host()`, parse text too and may
throw on malformed input, so what is proved of a returning `conforms` is about the events
on which those return. -/
structure Syntax (A E : Type) where
  /-- `valid(m::id::..., id)`. -/
  valid : IdKind → String → Bool
  /-- `m::id::user{...}.host()` and `m::id::event{...}.host()`. -/
  host : String → String
  /-- `empty(json::object{...})`. -/
  emptyObject : String → Bool
  /-- `json::object::get(key)`: the raw member, or the empty string. -/
  get : String → String → String
  /-- `unquote` of a raw string. -/
  unquote : String → String
  /-- `json::array::at(i)` of an entry: the raw element, or the exception it throws. -/
  elem : A → Nat → Except E String

/-- The members of an `m::event` that `conforms` reads. -/
structure Event (A : Type) where
  eventId : String
  roomId : String
  sender : String
  type : String
  origin : String
  signatures : String
  redacts : String
  membership : String
  content : String
  stateKey : String
  depth : Int
  prevEvents : List A
  prevState : List A

section
variable {A E : Type} (x : Syntax A E)

/-- `all_of<std::islower>`. -/
def allLower (s : String) : Bool :=
  s.all Char.isLower

/-- The checks of `conforms(e)` before the `prev` loops, in order. -/
def checks (e : Event A) : Report :=
  let r := 0#64
  let r := setIf (!x.valid .event e.eventId) .invalidOrMissingEventId r
  let r := setIf (!x.valid .room e.roomId) .invalidOrMissingRoomId r
  let r := setIf (!x.valid .user e.sender) .invalidOrMissingSenderId r
  let r := setIf e.type.isEmpty .missingType r
  let r := setIf e.origin.isEmpty .missingOrigin r
  let r := setIf false .invalidOrigin r
  let r := setIf (x.emptyObject e.signatures) .missingSignatures r
  let r := setIf (x.emptyObject (x.get e.signatures e.origin)) .missingOriginSignature r
  let r := setIf (!has .invalidOrMissingSenderId r && e.origin != x.host e.sender)
    .mismatchOriginSender r
  let r := setIf (!has .invalidOrMissingEventId r && e.origin != x.host e.eventId)
    .mismatchOriginEventId r
  let r := setIf (e.type == "m.room.redaction" && !x.valid .event e.redacts)
    .invalidOrMissingRedactsId r
  let r := setIf (!e.redacts.isEmpty && e.redacts == e.eventId) .selfRedacts r
  let r := setIf (e.type == "m.room.member" && e.membership.isEmpty) .missingMembership r
  let r := setIf (e.type == "m.room.member" && !allLower e.membership) .invalidMembership r
  let r := setIf (e.type == "m.room.member" && (x.unquote (x.get e.content "membership")).isEmpty)
    .missingContentMembership r
  let r := setIf (e.type == "m.room.member" && !allLower (x.unquote (x.get e.content "membership")))
    .invalidContentMembership r
  let r := setIf (e.type != "m.room.create" && e.prevEvents.isEmpty) .missingPrevEvents r
  let r := setIf (e.type != "m.room.create" && !e.stateKey.isEmpty && e.prevState.isEmpty)
    .missingPrevState r
  let r := setIf (decide (e.depth < 0)) .depthNegative r
  let r := setIf (e.type != "m.room.create" && e.depth == 0) .depthZero r
  r

/-- The inner loop, `for(pe_ : prev) if(i != j++) if(pe_.at(0) == pe.at(0)) set(dup);`,
from position `j`. -/
def innerLoop (i : Nat) (pe : A) (dup : Code) : Nat → List A → Report → Except E Report
  | _, [], r => .ok r
  | j, pe' :: rest, r =>
    if i != j then do
      let a ← x.elem pe' 0
      let b ← x.elem pe 0
      innerLoop i pe dup (j + 1) rest (setIf (a == b) dup r)
    else innerLoop i pe dup (j + 1) rest r

/-- The outer loop, `for(pe : prev) { if(unquote(pe.at(0)) == event_id) set(self); j = 0;
...; ++i; }`, from position `i`, over the rest `pes` of the whole array `all`. -/
def outerLoop (eventId : String) (self dup : Code) (all : List A) :
    Nat → List A → Report → Except E Report
  | _, [], r => .ok r
  | i, pe :: pes, r => do
    let a ← x.elem pe 0
    let r ← innerLoop x i pe dup 0 all (setIf (x.unquote a == eventId) self r)
    outerLoop eventId self dup all (i + 1) pes r

/-- `event::conforms::conforms(const event &e)`. -/
def conforms (e : Event A) : Except E Report := do
  let r ← outerLoop x e.eventId .selfPrevEvent .dupPrevEvent e.prevEvents 0 e.prevEvents
    (checks x e)
  outerLoop x e.eventId .selfPrevState .dupPrevState e.prevState 0 e.prevState r

/-- `event::conforms::conforms(const event &e, const uint64_t &skip)`: `report &= ~skip`. -/
def conformsSkip (e : Event A) (skip : Report) : Except E Report :=
  (conforms x e).map (· &&& ~~~skip)

/-! ## The checks before the loops leave the `prev` bits clear -/

/-- Only the `prev` loops set `SELF_PREV_*` and `DUP_PREV_*`. -/
theorem checks_has (e : Event A) {c : Code}
    (hc : c = .selfPrevEvent ∨ c = .dupPrevEvent ∨ c = .selfPrevState ∨ c = .dupPrevState) :
    has c (checks x e) = false := by
  rcases hc with rfl | rfl | rfl | rfl <;> simp [checks]

/-! ## The loops -/

/-- **The inner loop flags a repeated id.** If entry `pe` has id `b` and the entries from
position `j` have ids `ids`, the loop returns, and sets `dup` iff a position other than `i`
repeats `b`; no other bit changes. -/
theorem innerLoop_ok (i : Nat) (pe : A) (dup : Code) {b : String} (hb : x.elem pe 0 = .ok b) :
    ∀ (j : Nat) (pes : List A) (ids : List String) (r : Report),
      pes.map (x.elem · 0) = ids.map .ok →
      ∃ r', innerLoop x i pe dup j pes r = .ok r' ∧ ∀ c, has c r' = true ↔
        (has c r = true ∨ c = dup ∧ ∃ k, j + k ≠ i ∧ ids[k]? = some b)
  | _, [], [], r, _ => ⟨r, rfl, fun c => by simp⟩
  | j, pe' :: pes, a :: ids, r, h => by
    simp only [List.map_cons, List.cons.injEq] at h
    obtain ⟨ha, h⟩ := h
    -- position `j` flags `dup` when it is not `i` and repeats `b`
    let r₀ := if i != j then setIf (a == b) dup r else r
    have hr₀ : ∀ c, has c r₀ = true ↔ has c r = true ∨ c = dup ∧ i ≠ j ∧ a = b := by
      intro c
      by_cases hij : i = j
      · simp [r₀, hij]
      · simp [r₀, hij]; tauto
    obtain ⟨r', hr', hc⟩ := innerLoop_ok i pe dup hb (j + 1) pes ids r₀ h
    refine ⟨r', ?_, fun c => (hc c).trans ?_⟩
    · by_cases hij : i = j <;> simpa [innerLoop, hij, ha, hb, r₀] using hr'
    rw [hr₀]
    constructor
    · rintro ((h | ⟨rfl, hij, rfl⟩) | ⟨rfl, k, hk, hv⟩)
      · exact .inl h
      · exact .inr ⟨rfl, 0, by omega, by simp⟩
      · exact .inr ⟨rfl, k + 1, by omega, by simpa using hv⟩
    · rintro (h | ⟨rfl, k, hk, hv⟩)
      · exact .inl (.inl h)
      · cases k with
        | zero => exact .inl (.inr ⟨rfl, by omega, by simpa using hv⟩)
        | succ k => exact .inr ⟨rfl, k, by omega, by simpa using hv⟩
  | _, [], _ :: _, _, h => by simp at h
  | _, _ :: _, [], _, h => by simp at h

/-- **The outer loop flags the self-reference and the repeated ids.** Over entries with
ids `ids`, from position `i` with the rest `pes` of ids `qs`: the loop returns, and sets
`self` iff one of `qs` unquotes to the event's id, and `dup` iff an id of `qs` is repeated
at another position of `ids`; no other bit changes. -/
theorem outerLoop_ok (eventId : String) (self dup : Code) (hsd : self ≠ dup) {all : List A}
    {ids : List String} (hall : all.map (x.elem · 0) = ids.map .ok) :
    ∀ (i : Nat) (pes : List A) (qs : List String) (r : Report),
      pes.map (x.elem · 0) = qs.map .ok →
      ∃ r', outerLoop x eventId self dup all i pes r = .ok r' ∧ ∀ c, has c r' = true ↔
        (has c r = true ∨ c = self ∧ (∃ q ∈ qs, x.unquote q = eventId) ∨
          c = dup ∧ ∃ k m q, i + k ≠ m ∧ qs[k]? = some q ∧ ids[m]? = some q)
  | _, [], [], r, _ => ⟨r, rfl, fun c => by simp⟩
  | i, pe :: pes, q :: qs, r, h => by
    simp only [List.map_cons, List.cons.injEq] at h
    obtain ⟨hq, h⟩ := h
    obtain ⟨r₁, hr₁, hc₁⟩ := innerLoop_ok x i pe dup hq 0 all ids
      (setIf (x.unquote q == eventId) self r) hall
    obtain ⟨r', hr', hc⟩ := outerLoop_ok eventId self dup hsd hall (i + 1) pes qs r₁ h
    refine ⟨r', by simp [outerLoop, hq, hr₁, hr'], fun c => (hc c).trans ?_⟩
    rw [hc₁]
    simp only [has_setIf, Bool.or_eq_true, Bool.and_eq_true, beq_iff_eq, decide_eq_true_eq,
      List.mem_cons, Nat.zero_add]
    constructor
    · rintro (((⟨hu, rfl⟩ | h) | ⟨rfl, m, hm, hv⟩) | ⟨rfl, q', hq', hu⟩ |
        ⟨rfl, k, m, q', hk, hv, hv'⟩)
      · exact .inr (.inl ⟨rfl, q, .inl rfl, hu⟩)
      · exact .inl h
      · exact .inr (.inr ⟨rfl, 0, m, q, by omega, by simp, hv⟩)
      · exact .inr (.inl ⟨rfl, q', .inr hq', hu⟩)
      · exact .inr (.inr ⟨rfl, k + 1, m, q', by omega, by simpa using hv, hv'⟩)
    · rintro (h | ⟨rfl, q', hq' | hq', hu⟩ | ⟨rfl, k, m, q', hk, hv, hv'⟩)
      · exact .inl (.inl (.inr h))
      · exact .inl (.inl (.inl ⟨hq' ▸ hu, rfl⟩))
      · exact .inr (.inl ⟨rfl, q', hq', hu⟩)
      · cases k with
        | zero =>
          simp only [List.getElem?_cons_zero, Option.some.injEq] at hv
          exact .inl (.inr ⟨rfl, m, by omega, hv ▸ hv'⟩)
        | succ k => exact .inr (.inr ⟨rfl, k, m, q', by omega, by simpa using hv, hv'⟩)
  | _, [], _ :: _, _, h => by simp at h
  | _, _ :: _, [], _, h => by simp at h

/-- **The `prev` bits of `conforms` are list predicates.** If every entry of `prev_events`
and of `prev_state` has a first element, with `ids` and `sids` the raw ids in order, then
`conforms` returns a report, and in it
* `DUP_PREV_EVENT` is set iff two different positions of `prev_events` have equal ids;
* `SELF_PREV_EVENT` is set iff the unquoted id of an entry of `prev_events` is the event's;
* `DUP_PREV_STATE` and `SELF_PREV_STATE` say the same of `prev_state`. -/
theorem conforms_prev_flags (e : Event A) (ids sids : List String)
    (hpe : e.prevEvents.map (x.elem · 0) = ids.map .ok)
    (hps : e.prevState.map (x.elem · 0) = sids.map .ok) :
    ∃ r, conforms x e = .ok r ∧
      (has .dupPrevEvent r = true ↔ ∃ (i j : Nat) (v : String), i ≠ j ∧ ids[i]? = some v ∧ ids[j]? = some v) ∧
      (has .selfPrevEvent r = true ↔ ∃ v ∈ ids, x.unquote v = e.eventId) ∧
      (has .dupPrevState r = true ↔ ∃ (i j : Nat) (v : String), i ≠ j ∧ sids[i]? = some v ∧ sids[j]? = some v) ∧
      (has .selfPrevState r = true ↔ ∃ v ∈ sids, x.unquote v = e.eventId) := by
  obtain ⟨r₁, hr₁, hc₁⟩ := outerLoop_ok x e.eventId .selfPrevEvent .dupPrevEvent (by decide) hpe
    0 e.prevEvents ids (checks x e) hpe
  obtain ⟨r₂, hr₂, hc₂⟩ := outerLoop_ok x e.eventId .selfPrevState .dupPrevState (by decide) hps
    0 e.prevState sids r₁ hps
  have h₁ := checks_has x e (c := .selfPrevEvent) (by simp)
  have h₂ := checks_has x e (c := .dupPrevEvent) (by simp)
  have h₃ := checks_has x e (c := .selfPrevState) (by simp)
  have h₄ := checks_has x e (c := .dupPrevState) (by simp)
  refine ⟨r₂, by simp [conforms, hr₁, hr₂], ?_, ?_, ?_, ?_⟩ <;>
    simp only [hc₂, hc₁, h₁, h₂, h₃, h₄, Bool.false_eq_true, reduceCtorEq, false_and, false_or,
      true_and, or_false, or_self, zero_add, ne_eq, exists_and_left]

/-! ## When `conforms` raises

The loops call `at(0)` on every entry, and nothing in `conforms` catches what it throws. -/

/-- The outer loop returns only if every entry it visits has a first element. -/
theorem outerLoop_elem (eventId : String) (self dup : Code) (all : List A) :
    ∀ (i : Nat) (pes : List A) (r r' : Report),
      outerLoop x eventId self dup all i pes r = .ok r' →
        ∀ pe ∈ pes, ∃ v, x.elem pe 0 = .ok v
  | _, [], _, _, _ => by simp
  | i, pe :: pes, r, r', h => by
    cases ha : x.elem pe 0 with
    | error e => simp [outerLoop, ha] at h
    | ok a =>
      cases hi : innerLoop x i pe dup 0 all (setIf (x.unquote a == eventId) self r) with
      | error e => simp [outerLoop, ha, hi] at h
      | ok r₁ =>
        simp only [outerLoop, ha, hi, except_ok_bind] at h
        exact List.forall_mem_cons.mpr
          ⟨⟨a, ha⟩, outerLoop_elem eventId self dup all (i + 1) pes r₁ r' h⟩

/-- `conforms` returns only if every entry of `prev_events` and of `prev_state` has a first
element. -/
theorem conforms_elem {e : Event A} {r : Report} (h : conforms x e = .ok r) :
    (∀ pe ∈ e.prevEvents, ∃ v, x.elem pe 0 = .ok v) ∧
    (∀ ps ∈ e.prevState, ∃ v, x.elem ps 0 = .ok v) := by
  cases h₁ : outerLoop x e.eventId .selfPrevEvent .dupPrevEvent e.prevEvents 0 e.prevEvents
      (checks x e) with
  | error err => simp [conforms, h₁] at h
  | ok r₁ =>
    simp only [conforms, h₁, except_ok_bind] at h
    exact ⟨outerLoop_elem x _ _ _ _ 0 _ _ _ h₁, outerLoop_elem x _ _ _ _ 0 _ _ _ h⟩

/-- **An entry without a first element makes `conforms` raise.** If `at(0)` throws on an
entry of `prev_events` or of `prev_state`, both constructors, `conforms(e)` and
`conforms(e, skip)` for every `skip`, raise the same exception. -/
theorem conforms_raises_without_first_element (e : Event A)
    (h : (∃ pe ∈ e.prevEvents, ∀ v, x.elem pe 0 ≠ .ok v) ∨
      (∃ ps ∈ e.prevState, ∀ v, x.elem ps 0 ≠ .ok v)) :
    ∃ err, conforms x e = .error err ∧ ∀ skip, conformsSkip x e skip = .error err := by
  cases hc : conforms x e with
  | ok r =>
    obtain ⟨hpe, hps⟩ := conforms_elem x hc
    rcases h with ⟨pe, hm, hn⟩ | ⟨ps, hm, hn⟩
    · obtain ⟨v, hv⟩ := hpe pe hm; exact absurd hv (hn v)
    · obtain ⟨v, hv⟩ := hps ps hm; exact absurd hv (hn v)
  | error err => exact ⟨err, rfl, fun skip => by simp [conformsSkip, hc, Except.map]⟩

end

/-- A `Syntax` to run the model on: an entry is the list of its raw elements, an id is
valid when it is not empty, and strings are taken as they are. -/
def rawSyntax : Syntax (List String) String where
  valid _ s := !s.isEmpty
  host s := s
  emptyObject s := s.isEmpty
  get _ _ := ""
  unquote s := s
  elem a i := match a[i]? with
    | some v => .ok v
    | none => .error "out of range"

/-- An event whose first and third `prev_events` repeat an id. -/
def repeatedPrev : Event (List String) where
  eventId := "$e"
  roomId := "!r"
  sender := "@u"
  type := "m.room.message"
  origin := "o"
  signatures := "s"
  redacts := ""
  membership := ""
  content := ""
  stateKey := ""
  depth := 3
  prevEvents := [["$a"], ["$b"], ["$a"]]
  prevState := []

theorem conforms_prev_flags_repeated :
    ∃ r, conforms rawSyntax repeatedPrev = .ok r ∧
      (has .dupPrevEvent r = true ↔ ∃ (i j : Nat) (v : String), i ≠ j ∧
        ["$a", "$b", "$a"][i]? = some v ∧ ["$a", "$b", "$a"][j]? = some v) ∧
      (has .selfPrevEvent r = true ↔ ∃ v ∈ ["$a", "$b", "$a"], rawSyntax.unquote v = "$e") ∧
      (has .dupPrevState r = true ↔ ∃ (i j : Nat) (v : String), i ≠ j ∧
        ([] : List String)[i]? = some v ∧ ([] : List String)[j]? = some v) ∧
      (has .selfPrevState r = true ↔ ∃ v ∈ ([] : List String), rawSyntax.unquote v = "$e") :=
  conforms_prev_flags rawSyntax repeatedPrev ["$a", "$b", "$a"] [] rfl rfl

/-- An event whose one `prev_events` entry is the empty array. -/
def emptyPrev : Event (List String) :=
  { repeatedPrev with prevEvents := [[]] }

theorem conforms_raises_on_empty_prev :
    (∃ pe ∈ emptyPrev.prevEvents, ∀ v, rawSyntax.elem pe 0 ≠ .ok v) ∧
    ∃ err, conforms rawSyntax emptyPrev = .error err ∧
      ∀ skip, conformsSkip rawSyntax emptyPrev skip = .error err :=
  have h : ∃ pe ∈ emptyPrev.prevEvents, ∀ v, rawSyntax.elem pe 0 ≠ .ok v :=
    ⟨[], List.mem_singleton_self _, fun v => by simp [rawSyntax]⟩
  ⟨h, conforms_raises_without_first_element rawSyntax emptyPrev (.inl h)⟩

example : conforms rawSyntax emptyPrev = .error "out of range" := rfl

end Charybdis.M
