import Mathlib.Data.List.Basic
import Charybdis.M.Conforms

/-!
# The text of a `conforms` report

`Charybdis.M.Conforms` is about which bits a report holds. This file is about how the
report is shown: `conforms::string(out)` writes the names of the set codes from the table
`event_conforms_reflects`, separated by single spaces, into a caller's buffer, and
`operator<<` uses a 1024-byte one. `conforms::reflect(name)` goes the other way, one name
at a time.

`string` is modelled as the source writes it: a `mutable_buffer` cursor that copies what
fits and moves past it, a space written only once something has been written. Its meaning
is `text`, the names joined by spaces: `string` writes exactly the first `size` bytes of
`text` (`string_eq_take`), and `text` is under 1024 bytes for every report.

Reading the text back (`parse`: split on spaces, each name through `reflect(name)`) gives
the report again, as long as no bit above the 24 codes is set (`CodeBits`). `conforms`
never sets one, so the text `operator<<` prints for a report of `conforms` determines it
exactly. The names are ASCII, so a byte of the buffer is a `Char` here.
-/

namespace Charybdis.M

/-! ## The table -/

/-- `event_conforms_reflects`: the name of each code, at the code's value. -/
def reflects : List String :=
  ["INVALID_OR_MISSING_EVENT_ID",
   "INVALID_OR_MISSING_ROOM_ID",
   "INVALID_OR_MISSING_SENDER_ID",
   "MISSING_TYPE",
   "MISSING_ORIGIN",
   "INVALID_ORIGIN",
   "INVALID_OR_MISSING_REDACTS_ID",
   "MISSING_MEMBERSHIP",
   "INVALID_MEMBERSHIP",
   "MISSING_CONTENT_MEMBERSHIP",
   "INVALID_CONTENT_MEMBERSHIP",
   "MISSING_PREV_EVENTS",
   "MISSING_PREV_STATE",
   "DEPTH_NEGATIVE",
   "DEPTH_ZERO",
   "MISSING_SIGNATURES",
   "MISSING_ORIGIN_SIGNATURE",
   "MISMATCH_ORIGIN_SENDER",
   "MISMATCH_ORIGIN_EVENT_ID",
   "SELF_REDACTS",
   "SELF_PREV_EVENT",
   "SELF_PREV_STATE",
   "DUP_PREV_EVENT",
   "DUP_PREV_STATE"]

/-- `m::reflect(code)`: `event_conforms_reflects.at(code)`, or `"??????"` if `at` throws. -/
def reflect (c : Code) : String :=
  reflects[c.toCtorIdx]?.getD "??????"

/-- `conforms::reflect(name)`: `std::find` of `name` in `event_conforms_reflects`, and the
code at that distance from the front; `std::out_of_range` if it is not there. -/
def reflectName (name : String) : Except String Code :=
  match reflects.indexOf? name with
  | some i => .ok (Code.ofNat i)
  | none => .error "There is no event::conforms code by that name."

theorem toCtorIdx_ofNat {i : Nat} (h : i < 24) : (Code.ofNat i).toCtorIdx = i := by
  revert i; decide

/-- Every name is non-empty, has no space, and is at most 29 bytes long. -/
theorem reflect_facts (c : Code) :
    (reflect c).toList ≠ [] ∧ ' ' ∉ (reflect c).toList ∧
      (reflect c).toList.length ≤ 29 := by
  cases c <;> decide

/-- The names are distinct: each one finds its own code. -/
theorem reflectName_reflect (c : Code) : reflectName (reflect c) = .ok c := by
  cases c <;> rfl

/-! ## `conforms::string` -/

/-- A `mutable_buffer` filled from the front of `out`: the bytes written since
`begin(out)`, and the room left before `end(out)`. -/
structure Cursor where
  written : List Char
  room : Nat

/-- `consume(buf, copy(buf, s))`: copy what fits of `s`, and move `begin(buf)` past it. -/
def Cursor.put (b : Cursor) (s : List Char) : Cursor :=
  ⟨b.written ++ s.take b.room, b.room - s.length⟩

/-- One turn of the loop of `conforms::string`: for a set code, a space if
`begin(buf) != begin(out)`, then its name. -/
def stringStep (report : Report) (b : Cursor) (i : Nat) : Cursor :=
  if !has (Code.ofNat i) report then b
  else (if b.written ≠ [] then b.put [' '] else b).put (reflect (Code.ofNat i)).toList

/-- `conforms::string(out)`, into a buffer of `size` bytes:
`for(i = 0; i < num_of<code>(); ++i)`, and the string view of what was written. -/
def string (size : Nat) (report : Report) : List Char :=
  ((List.range 24).foldl (stringStep report) ⟨[], size⟩).written

/-- The codes set in a report, in order of value. -/
def setCodes (report : Report) : List Code :=
  ((List.range 24).map Code.ofNat).filter (has · report)

/-- The text of a report: the names of its set codes, separated by single spaces. -/
def text (report : Report) : List Char :=
  [' '].intercalate ((setCodes report).map fun c => (reflect c).toList)

/-- The text so far after one more name. -/
def joinName (t name : List Char) : List Char :=
  if t = [] then name else t ++ ' ' :: name

/-- What one turn of the loop adds to the text. -/
def textStep (report : Report) (t : List Char) (i : Nat) : List Char :=
  if !has (Code.ofNat i) report then t else joinName t (reflect (Code.ofNat i)).toList

/-- `b` holds the first `n` bytes of `t`, and the room left after all of `t`. -/
def Cursor.Holds (n : Nat) (t : List Char) (b : Cursor) : Prop :=
  b.written = t.take n ∧ b.room = n - t.length

theorem Cursor.Holds.put {n : Nat} {t : List Char} {b : Cursor} (h : b.Holds n t)
    (s : List Char) : (b.put s).Holds n (t ++ s) := by
  obtain ⟨hw, hr⟩ := h
  exact ⟨by rw [Cursor.put, hw, hr, List.take_append_eq_append_take],
    by simp [Cursor.put, hr]; omega⟩

/-- In a buffer of no room, nothing is ever written. -/
theorem Cursor.Holds.zero {t : List Char} {b : Cursor} (h : b.Holds 0 t) (t' s : List Char) :
    (b.put s).Holds 0 t' := by
  obtain ⟨hw, hr⟩ := h
  simp_all [Holds, Cursor.put]

/-- One turn writes what it adds to the text, as far as it fits. The code tests what was
written, not what was meant: the two differ only when nothing fits at all. -/
theorem Cursor.Holds.step {n : Nat} {t : List Char} {b : Cursor} (h : b.Holds n t)
    (report : Report) (i : Nat) : (stringStep report b i).Holds n (textStep report t i) := by
  unfold stringStep textStep joinName
  cases has (Code.ofNat i) report
  · exact h
  simp only [Bool.not_true, Bool.false_eq_true, ite_false]
  by_cases ht : t = []
  · subst ht
    have hw : b.written = [] := by rw [h.1]; simp
    simpa [hw] using h.put (reflect (Code.ofNat i)).toList
  rw [if_neg ht]
  by_cases hw : b.written = []
  · -- nothing written of a non-empty text: the buffer has no room
    have hn : n = 0 := by
      by_contra hn
      rw [h.1] at hw
      exact ht ((List.take_eq_nil_iff.mp hw).resolve_left hn)
    subst hn
    simpa [hw] using h.zero _ (reflect (Code.ofNat i)).toList
  · simpa [hw] using (h.put [' ']).put (reflect (Code.ofNat i)).toList

theorem Cursor.Holds.run {n : Nat} (report : Report) :
    ∀ (l : List Nat) (t : List Char) (b : Cursor), b.Holds n t →
      (l.foldl (stringStep report) b).Holds n (l.foldl (textStep report) t)
  | [], _, _, h => h
  | i :: l, _, _, h => Cursor.Holds.run report l _ _ (h.step report i)

theorem foldl_textStep (report : Report) :
    ∀ (l : List Nat) (t : List Char), l.foldl (textStep report) t =
      ((l.filter fun i => has (Code.ofNat i) report).map
        fun i => (reflect (Code.ofNat i)).toList).foldl joinName t
  | [], _ => rfl
  | i :: l, t => by
    rw [List.foldl_cons, foldl_textStep report l, List.filter_cons]
    unfold textStep
    cases has (Code.ofNat i) report <;> rfl

theorem intercalate_cons (a : List Char) :
    ∀ l : List (List Char), [' '].intercalate (a :: l) = a ++ l.flatMap (' ' :: ·)
  | [] => by simp [List.intercalate]
  | b :: l => by
    have := intercalate_cons b l
    simp only [List.intercalate, List.intersperse_cons₂, List.flatten_cons] at this ⊢
    simp [this]

theorem foldl_joinName {t : List Char} (ht : t ≠ []) :
    ∀ ns : List (List Char), ns.foldl joinName t = t ++ ns.flatMap (' ' :: ·)
  | [] => by simp
  | n :: ns => by
    rw [List.foldl_cons, joinName, if_neg ht, foldl_joinName (by simp) ns]
    simp

/-- Joining non-empty names one by one is `intercalate`. -/
theorem foldl_joinName_nil : ∀ {ns : List (List Char)}, (∀ n ∈ ns, n ≠ []) →
    ns.foldl joinName [] = [' '].intercalate ns
  | [], _ => rfl
  | n :: ns, h => by
    rw [List.foldl_cons, joinName, if_pos rfl, foldl_joinName (h n (List.mem_cons_self n ns)),
      intercalate_cons]

theorem setCodes_names (report : Report) :
    (setCodes report).map (fun c => (reflect c).toList) =
      ((List.range 24).filter fun i => has (Code.ofNat i) report).map
        fun i => (reflect (Code.ofNat i)).toList := by
  simp [setCodes, List.filter_map, Function.comp_def]

theorem names_ne_nil (report : Report) :
    ∀ n ∈ (setCodes report).map (fun c => (reflect c).toList), n ≠ [] := by
  simp only [List.mem_map]
  rintro _ ⟨c, -, rfl⟩
  exact (reflect_facts c).1

/-- `conforms::string(out)` writes the first `size` bytes of the text. -/
theorem string_eq_take (size : Nat) (report : Report) :
    string size report = (text report).take size := by
  have h := Cursor.Holds.run (n := size) report (List.range 24) [] ⟨[], size⟩
    ⟨by simp, by simp⟩
  rw [string, h.1, foldl_textStep, text, setCodes_names, foldl_joinName_nil]
  rw [← setCodes_names]
  exact names_ne_nil report

theorem length_foldl_textStep (report : Report) :
    ∀ (l : List Nat) (t : List Char),
      (l.foldl (textStep report) t).length ≤ t.length + 30 * l.length
  | [], _ => by simp
  | i :: l, t => by
    have hl := length_foldl_textStep report l (textStep report t i)
    have hi := (reflect_facts (Code.ofNat i)).2.2
    have : (textStep report t i).length ≤ t.length + 30 := by
      unfold textStep joinName
      split
      · omega
      · split
        · omega
        · simp only [List.length_append, List.length_cons]
          omega
    simp only [List.foldl_cons, List.length_cons]
    omega

/-- Twenty-four names of at most 29 bytes and their separators fit in 720 bytes. -/
theorem text_length_lt (report : Report) : (text report).length < 1024 := by
  have := length_foldl_textStep report (List.range 24) []
  rw [foldl_textStep, ← setCodes_names, foldl_joinName_nil (names_ne_nil report)] at this
  simp only [List.length_nil, List.length_range] at this
  simp only [text]
  omega

/-- **`conforms::string(out)` writes the names of the set codes, cut to the buffer.** For
every report and buffer size, it writes exactly the first `size` bytes of the names of the
set codes in order of value, separated by single spaces; and that text is under 1024
bytes, so the buffer of `operator<<` always holds all of it. -/
theorem string_text (size : Nat) (report : Report) :
    string size report = (text report).take size ∧ (text report).length < 1024 :=
  ⟨string_eq_take size report, text_length_lt report⟩

/-! ## Reading the text back -/

/-- Reading a report back from its text: every space-separated name through
`conforms::reflect(name)`, and its code set. Not a function of the source: the inverse the
text is checked against. -/
def parse (t : List Char) : Except String Report :=
  if t = [] then .ok 0#64
  else (t.splitOn ' ').foldlM
    (fun r name => do return set (← reflectName (String.mk name)) r) 0#64

/-- No bit above the 24 codes is set. -/
def CodeBits (r : Report) : Prop :=
  ∀ i, 24 ≤ i → r.getLsbD i = false

theorem codeBits_zero : CodeBits 0#64 := fun _ _ => by simp

theorem CodeBits.set {r : Report} (h : CodeBits r) (c : Code) : CodeBits (M.set c r) := by
  intro i hi
  show (r ||| BitVec.twoPow 64 c.toCtorIdx).getLsbD i = false
  have : c.toCtorIdx < 24 := by cases c <;> decide
  rw [BitVec.getLsbD_or, BitVec.getLsbD_twoPow, h i hi]
  simp; omega

theorem CodeBits.setIf {r : Report} (h : CodeBits r) (cond : Bool) (c : Code) :
    CodeBits (M.setIf cond c r) := by
  unfold M.setIf
  split
  · exact h.set c
  · exact h

theorem CodeBits.foldl_set {r : Report} (h : CodeBits r) :
    ∀ l : List Code, CodeBits (l.foldl (fun r d => M.set d r) r)
  | [] => h
  | d :: l => (h.set d).foldl_set l

theorem CodeBits.and {r : Report} (h : CodeBits r) (m : Report) : CodeBits (r &&& m) :=
  fun i hi => by rw [BitVec.getLsbD_and, h i hi, Bool.false_and]

/-- Two reports with no bit above the codes are equal if they have the same codes. -/
theorem CodeBits.ext {r r' : Report} (h : CodeBits r) (h' : CodeBits r')
    (hc : ∀ c, has c r = has c r') : r = r' := by
  apply BitVec.eq_of_getLsbD_eq
  intro ⟨i, _⟩
  by_cases hi : i < 24
  · have := hc (Code.ofNat i)
    rwa [has_eq_getLsbD, has_eq_getLsbD, toCtorIdx_ofNat hi] at this
  · rw [h i (by omega), h' i (by omega)]

theorem mem_setCodes (c : Code) (report : Report) : c ∈ setCodes report ↔ has c report := by
  simp only [setCodes, List.mem_filter, List.mem_map, List.mem_range, and_iff_right_iff_imp]
  exact fun _ => ⟨c.toCtorIdx, by cases c <;> decide, Code.ofNat_toCtorIdx c⟩

theorem has_foldl_set (c : Code) : ∀ (l : List Code) (r : Report),
    has c (l.foldl (fun r d => set d r) r) = (decide (c ∈ l) || has c r)
  | [], _ => by simp
  | d :: l, r => by
    rw [List.foldl_cons, has_foldl_set c l, has_set]
    by_cases h₁ : c = d <;> by_cases h₂ : c ∈ l <;> simp [h₁, h₂]

/-- Each name read back sets its own code. -/
theorem foldlM_parse : ∀ (l : List Code) (r : Report),
    (l.map fun c => (reflect c).toList).foldlM
        (fun r name => do return set (← reflectName (String.mk name)) r) r =
      .ok (l.foldl (fun r d => set d r) r)
  | [], _ => rfl
  | c :: l, r => by
    have hc : reflectName (String.mk (reflect c).toList) = .ok c := reflectName_reflect c
    rw [List.map_cons, List.foldlM_cons, List.foldl_cons, hc, ← foldlM_parse l (set c r)]
    rfl

/-- The text of a report with no bit above the codes reads back as the report. -/
theorem parse_text {report : Report} (hr : CodeBits report) :
    parse (text report) = .ok report := by
  by_cases h : setCodes report = []
  · have : report = 0#64 := hr.ext codeBits_zero fun c => by
      simpa [h] using (mem_setCodes c report).not.mp
    rw [parse, if_pos (by rw [text, h]; rfl), this]
  obtain ⟨c, cs, hcs⟩ := List.exists_cons_of_ne_nil h
  have hne : text report ≠ [] := by
    rw [text, hcs, List.map_cons, intercalate_cons]
    exact fun h' => (reflect_facts c).1 (List.append_eq_nil.mp h').1
  rw [parse, if_neg hne, text, List.splitOn_intercalate, foldlM_parse]
  · exact congrArg _ ((codeBits_zero.foldl_set _).ext hr fun d => by
      simp [has_foldl_set, mem_setCodes])
  · simp only [List.mem_map]
    rintro _ ⟨d, -, rfl⟩
    exact (reflect_facts d).2.1
  · simpa using h

/-! ## `conforms` sets no bit above the codes -/

section
variable {A E : Type} (x : Syntax A E)

theorem checks_codeBits (e : Event A) : CodeBits (checks x e) :=
  -- one `setIf` for each of the twenty checks
  codeBits_zero |>.setIf _ _ |>.setIf _ _ |>.setIf _ _ |>.setIf _ _ |>.setIf _ _
    |>.setIf _ _ |>.setIf _ _ |>.setIf _ _ |>.setIf _ _ |>.setIf _ _
    |>.setIf _ _ |>.setIf _ _ |>.setIf _ _ |>.setIf _ _ |>.setIf _ _
    |>.setIf _ _ |>.setIf _ _ |>.setIf _ _ |>.setIf _ _ |>.setIf _ _

theorem innerLoop_codeBits (i : Nat) (pe : A) (dup : Code) :
    ∀ (j : Nat) (pes : List A) (r r' : Report),
      innerLoop x i pe dup j pes r = .ok r' → CodeBits r → CodeBits r'
  | _, [], _, _, h, hr => by cases h; exact hr
  | j, pe' :: pes, r, r', h, hr => by
    unfold innerLoop at h
    split at h
    · obtain ⟨a, -, h⟩ := except_bind_eq_ok.mp h
      obtain ⟨b, -, h⟩ := except_bind_eq_ok.mp h
      exact innerLoop_codeBits i pe dup _ _ _ _ h (hr.setIf _ _)
    · exact innerLoop_codeBits i pe dup _ _ _ _ h hr

theorem outerLoop_codeBits (eventId : String) (self dup : Code) (all : List A) :
    ∀ (i : Nat) (pes : List A) (r r' : Report),
      outerLoop x eventId self dup all i pes r = .ok r' → CodeBits r → CodeBits r'
  | _, [], _, _, h, hr => by cases h; exact hr
  | i, pe :: pes, r, r', h, hr => by
    unfold outerLoop at h
    obtain ⟨a, -, h⟩ := except_bind_eq_ok.mp h
    obtain ⟨r₁, h₁, h⟩ := except_bind_eq_ok.mp h
    exact outerLoop_codeBits eventId self dup all _ _ _ _ h
      (innerLoop_codeBits x i pe dup _ _ _ _ h₁ (hr.setIf _ _))

theorem conforms_codeBits {e : Event A} {r : Report} (h : conforms x e = .ok r) :
    CodeBits r := by
  obtain ⟨r₁, h₁, h⟩ := except_bind_eq_ok.mp h
  exact outerLoop_codeBits x _ _ _ _ _ _ _ _ h
    (outerLoop_codeBits x _ _ _ _ _ _ _ _ h₁ (checks_codeBits x e))

/-- **The printed text of a `conforms` report gives the report back.** Whatever the event,
if `conforms(e)` returns a report, the text `operator<<` writes for it, in its 1024-byte
buffer, reads back as exactly that report; so does the text of `conforms(e, skip)`, for
every `skip`. -/
theorem conforms_text_round_trip {e : Event A} {r : Report} (h : conforms x e = .ok r) :
    parse (string 1024 r) = .ok r ∧
      ∀ skip, parse (string 1024 (r &&& ~~~skip)) = .ok (r &&& ~~~skip) := by
  have hr := conforms_codeBits x h
  refine ⟨?_, fun skip => ?_⟩
  · rw [string_eq_take, List.take_of_length_le (text_length_lt r).le, parse_text hr]
  · rw [string_eq_take, List.take_of_length_le (text_length_lt _).le, parse_text (hr.and _)]

end

theorem conforms_text_round_trip_repeated :
    ∃ r, conforms rawSyntax repeatedPrev = .ok r ∧
      (parse (string 1024 r) = .ok r ∧
        ∀ skip, parse (string 1024 (r &&& ~~~skip)) = .ok (r &&& ~~~skip)) :=
  ⟨_, rfl, conforms_text_round_trip rawSyntax (e := repeatedPrev) rfl⟩

end Charybdis.M
