import Mathlib.Data.List.Basic
import Mathlib.Data.List.Nodup

/-!
# `mods::imports`: the modules loaded, by name

`mods::imports` maps a module's name to the `mods::import` that holds it loaded. Its
declaration is not under `src/`; its uses are `imports.emplace(name, name)`, whose
`.second` says whether the name was new, `imports.erase(name)`, read as a count, and
`imports.find(name)`: a `std::map` from names. The model keeps:

* the names in the map, held once each (`Imports.nodup`, so a map that holds a name twice
  cannot be built);
* a ghost `log` of the loads and unloads the map has made, in order.

Building a `mods::import` loads the shared object and runs its init, and throws if either
fails. Which modules load is not in the source: the model takes it as an oracle
`loads : String → Bool`. `std::map::emplace` builds its node before it looks for the key,
so an `emplace` of a name already held still loads the module, and can still throw.

The console's `mod load`, `mod unload` and `mod reload` act on the map one name at a time
and write a line per name. The line's tokens are split by `tokens(line, ' ', ...)`, which
is not under `src/`; the model takes the list of names.
-/

namespace Charybdis.Mods

/-- What the map did to a module. -/
inductive Event
  | load (name : String)
  | unload (name : String)
  deriving DecidableEq, Repr

/-- `mods::imports`, and the ghost log of what it loaded and unloaded. -/
structure Imports where
  names : List String
  /-- A map holds each name once. -/
  nodup : names.Nodup
  log : List Event

namespace Imports

def empty : Imports := ⟨[], List.nodup_nil, []⟩

/-- A new name goes in, and its module is loaded. -/
def add (m : Imports) (name : String) (h : name ∉ m.names) : Imports :=
  ⟨name :: m.names, List.nodup_cons.mpr ⟨h, m.nodup⟩, m.log ++ [.load name]⟩

/-- A name comes out, and its module is unloaded. -/
def remove (m : Imports) (name : String) : Imports :=
  ⟨m.names.erase name, m.nodup.erase name, m.log ++ [.unload name]⟩

/-- `imports.emplace(name, name)`: the `mods::import` is built first, and throws if the
module does not load; the map then keeps it if `name` is new. `true` if it was added. -/
def emplace (loads : String → Bool) (name : String) (m : Imports) :
    Except String (Bool × Imports) :=
  if loads name then
    if h : name ∈ m.names then .ok (false, m) else .ok (true, m.add name h)
  else .error name

/-- `imports.erase(name)`: `true`, a count of one, if `name` was held. -/
def erase (name : String) (m : Imports) : Bool × Imports :=
  if name ∈ m.names then (true, m.remove name) else (false, m)

section
variable (m : Imports) (name x : String)

@[simp] theorem mem_add (h : name ∉ m.names) : x ∈ (m.add name h).names ↔ x = name ∨ x ∈ m.names :=
  List.mem_cons

@[simp] theorem add_log (h : name ∉ m.names) : (m.add name h).log = m.log ++ [.load name] := rfl

@[simp] theorem mem_remove : x ∈ (m.remove name).names ↔ x ≠ name ∧ x ∈ m.names :=
  m.nodup.mem_erase_iff

@[simp] theorem remove_log : (m.remove name).log = m.log ++ [.unload name] := rfl

@[simp] theorem erase_fst : (m.erase name).1 = decide (name ∈ m.names) := by
  unfold erase; split <;> simp_all

@[simp] theorem mem_erase : x ∈ (m.erase name).2.names ↔ x ≠ name ∧ x ∈ m.names := by
  unfold erase
  split
  · exact m.mem_remove name x
  · exact ⟨fun hx => ⟨fun e => by simp_all, hx⟩, And.right⟩

end

/-- What a successful `emplace` did: the module loaded, and the name is held, logged as a
load if it is new. -/
theorem emplace_ok {loads : String → Bool} {name : String} {m m' : Imports} {added : Bool}
    (h : m.emplace loads name = .ok (added, m')) :
    loads name = true ∧ added = !decide (name ∈ m.names) ∧
      (∀ x, x ∈ m'.names ↔ x = name ∨ x ∈ m.names) ∧
      m'.log = m.log ++ if name ∈ m.names then [] else [.load name] := by
  unfold emplace at h
  split at h
  · split at h <;> cases h
    · exact ⟨‹_›, by simp_all, fun x => ⟨.inr, by rintro (rfl | hx) <;> assumption⟩, by simp_all⟩
    · exact ⟨‹_›, by simp_all, fun x => Imports.mem_add _ _ x _, by simp_all⟩
  · cases h

theorem emplace_error {loads : String → Bool} {name e : String} {m : Imports}
    (h : m.emplace loads name = .error e) : e = name ∧ loads name = false := by
  unfold emplace at h
  split at h
  · split at h <;> cases h
  · cases h; exact ⟨rfl, Bool.eq_false_iff.mpr ‹_›⟩

end Imports

/-! ## The console -/

/-- What a console command leaves: the map, the lines it wrote to `out`, and the exception
it let out, if any. -/
structure Run where
  imports : Imports
  out : List String
  error : Option String

/-- `out << line`, ahead of what the rest of the command writes. -/
def Run.said (line : String) (r : Run) : Run := { r with out := line :: r.out }

@[simp] theorem Run.said_imports (line : String) (r : Run) : (r.said line).imports = r.imports :=
  rfl
@[simp] theorem Run.said_error (line : String) (r : Run) : (r.said line).error = r.error := rfl
@[simp] theorem Run.said_out (line : String) (r : Run) : (r.said line).out = line :: r.out := rfl

/-- Erase each name in turn, writing `unloaded name` for one that was held and
`name is not loaded.` for one that was not: the loop of `mod unload` and the first loop of
`mod reload`, which word the first line differently. -/
def eraseEach (unloaded : String → String) : List String → Imports → Imports × List String
  | [], m => (m, [])
  | name :: names, m =>
    let r := eraseEach unloaded names (m.erase name).2
    (r.1, (if (m.erase name).1 then unloaded name else name ++ " is not loaded.") :: r.2)

/-- `console_cmd__mod__unload`, over the names of its line. -/
def modUnload (names : List String) (m : Imports) : Run :=
  let r := eraseEach (fun name => "unloaded " ++ name) names m
  ⟨r.1, r.2, none⟩

/-- `console_cmd__mod__load`, over the names of its line: a name the map holds is reported
and skipped; any other is emplaced, and a module that does not load ends the command. -/
def modLoad (loads : String → Bool) : List String → Imports → Run
  | [], m => ⟨m, [], none⟩
  | name :: names, m =>
    if name ∈ m.names then (modLoad loads names m).said (name ++ " is already loaded.")
    else match m.emplace loads name with
      | .ok (_, m') => (modLoad loads names m').said (name ++ " loaded.")
      | .error e => ⟨m, [], some e⟩

/-- The second loop of `mod reload`: emplace each name, reporting by `.second`; a module
that does not load ends the command. -/
def emplaceEach (loads : String → Bool) : List String → Imports → Run
  | [], m => ⟨m, [], none⟩
  | name :: names, m =>
    match m.emplace loads name with
    | .ok (added, m') =>
      (emplaceEach loads names m').said
        (if added then name ++ " loaded." else name ++ " is already loaded.")
    | .error e => ⟨m, [], some e⟩

section
variable {loads : String → Bool} {name : String} {names : List String} {m : Imports}

theorem emplaceEach_cons_ok {added : Bool} {m' : Imports} (he : m.emplace loads name = .ok (added, m')) :
    emplaceEach loads (name :: names) m = (emplaceEach loads names m').said
      (if added then name ++ " loaded." else name ++ " is already loaded.") := by
  simp [emplaceEach, he]

theorem emplaceEach_cons_error {e : String} (he : m.emplace loads name = .error e) :
    emplaceEach loads (name :: names) m = ⟨m, [], some e⟩ := by
  simp [emplaceEach, he]

end

/-- **`mod load` and the loop of `mod reload` differ only on a module that no longer loads.**
`mod load` looks a name up before it emplaces it; the loop lets `emplace` tell. On a held
name whose module would not load again, `mod load` reports it loaded where the loop
throws; while every held module loads, the two write the same and leave the same map. -/
theorem modLoad_eq_emplaceEach (loads : String → Bool) : ∀ {names : List String} {m : Imports},
    (∀ x ∈ m.names, loads x = true) → modLoad loads names m = emplaceEach loads names m
  | [], _, _ => rfl
  | name :: names, m, h => by
    by_cases hin : name ∈ m.names
    · have he : m.emplace loads name = .ok (false, m) := by
        simp [Imports.emplace, h name hin, hin]
      rw [modLoad, if_pos hin, emplaceEach_cons_ok he, modLoad_eq_emplaceEach loads h]
      rfl
    rcases he : m.emplace loads name with e | ⟨added, m'⟩
    · simp [modLoad, hin, he, emplaceEach_cons_error he]
    · obtain ⟨hl, rfl, hx, -⟩ := Imports.emplace_ok he
      have h' : ∀ x ∈ m'.names, loads x = true := fun x hx' =>
        ((hx x).mp hx').elim (fun e => e ▸ hl) (h x)
      simp [modLoad, hin, he, emplaceEach_cons_ok he, modLoad_eq_emplaceEach loads h']

/-- `console_cmd__mod__reload`: erase every name, in order, then emplace them again in the
reverse order. -/
def modReload (loads : String → Bool) (names : List String) (m : Imports) : Run :=
  let r := eraseEach (· ++ " unloaded.") names m
  let r' := emplaceEach loads names.reverse r.1
  { r' with out := r.2 ++ r'.out }

/-! ## What the loops leave -/

section
variable (unloaded : String → String) (loads : String → Bool)

theorem mem_eraseEach : ∀ (names : List String) (m : Imports) (x : String),
    x ∈ (eraseEach unloaded names m).1.names ↔ x ∈ m.names ∧ x ∉ names
  | [], m, x => by simp [eraseEach]
  | name :: names, m, x => by
    simp only [eraseEach, mem_eraseEach names, Imports.mem_erase, List.mem_cons, not_or]
    tauto

/-- With no name given twice, each line says whether that name was held before. -/
theorem eraseEach_out : ∀ {names : List String} (m : Imports), names.Nodup →
    (eraseEach unloaded names m).2 =
      names.map fun x => if x ∈ m.names then unloaded x else x ++ " is not loaded."
  | [], _, _ => rfl
  | name :: names, m, hn => by
    obtain ⟨hname, hn⟩ := List.nodup_cons.mp hn
    simp only [eraseEach, Imports.erase_fst, decide_eq_true_eq, List.map_cons,
      eraseEach_out _ hn]
    refine congrArg _ (List.map_congr_left fun x hx => ?_)
    have : x ≠ name := fun e => hname (e ▸ hx)
    simp [this]

/-- A `emplaceEach` that ends normally loaded every name. -/
theorem emplaceEach_ok : ∀ {names : List String} {m : Imports},
    (emplaceEach loads names m).error = none →
      ∀ x, x ∈ (emplaceEach loads names m).imports.names ↔ x ∈ m.names ∨ x ∈ names
  | [], _, _, x => by simp [emplaceEach]
  | name :: names, m, h, x => by
    rcases he : m.emplace loads name with e | ⟨added, m'⟩
    · rw [emplaceEach_cons_error he] at h; cases h
    · rw [emplaceEach_cons_ok he, Run.said_error] at h
      rw [emplaceEach_cons_ok he, Run.said_imports, emplaceEach_ok h,
        (Imports.emplace_ok he).2.2.1 x, List.mem_cons]
      tauto

/-- A `emplaceEach` that throws stopped at a name `e` that does not load, having loaded the
names before it and none after. -/
theorem emplaceEach_error : ∀ {names : List String} {m : Imports} {e : String},
    (emplaceEach loads names m).error = some e →
      ∃ pre post, names = pre ++ e :: post ∧ loads e = false ∧
        ∀ x, x ∈ (emplaceEach loads names m).imports.names ↔ x ∈ m.names ∨ x ∈ pre
  | [], _, _, h => by cases h
  | name :: names, m, e, h => by
    rcases he : m.emplace loads name with e' | ⟨added, m'⟩
    · rw [emplaceEach_cons_error he] at h ⊢
      obtain ⟨rfl, hl⟩ := Imports.emplace_error he
      cases h
      exact ⟨[], names, rfl, hl, by simp⟩
    · rw [emplaceEach_cons_ok he, Run.said_error] at h
      rw [emplaceEach_cons_ok he, Run.said_imports]
      obtain ⟨pre, post, rfl, hl, hx⟩ := emplaceEach_error h
      refine ⟨name :: pre, post, rfl, hl, fun x => ?_⟩
      rw [hx, (Imports.emplace_ok he).2.2.1 x, List.mem_cons]
      tauto

/-- From a map holding none of them, a `emplaceEach` of distinct names that ends normally
reports each one loaded. -/
theorem emplaceEach_out : ∀ {names : List String} {m : Imports}, names.Nodup →
    (∀ x ∈ names, x ∉ m.names) → (emplaceEach loads names m).error = none →
      (emplaceEach loads names m).out = names.map (· ++ " loaded.")
  | [], _, _, _, _ => rfl
  | name :: names, m, hn, hm, h => by
    obtain ⟨hname, hn⟩ := List.nodup_cons.mp hn
    rcases he : m.emplace loads name with e | ⟨added, m'⟩
    · rw [emplaceEach_cons_error he] at h; cases h
    obtain ⟨-, rfl, hx, -⟩ := Imports.emplace_ok he
    rw [emplaceEach_cons_ok he, Run.said_error] at h
    have hfresh : ∀ x ∈ names, x ∉ m'.names := fun x hx' hx'' => by
      rcases (hx x).mp hx'' with rfl | h'
      · exact hname hx'
      · exact hm x (List.mem_cons_of_mem _ hx') h'
    rw [emplaceEach_cons_ok he, Run.said_out, emplaceEach_out hn hfresh h]
    simp [hm name (List.mem_cons_self _ _)]

end

/-- **What `mod reload` leaves.** Every name of the command is erased, in order, then
emplaced again in the reverse order. When the command ends normally every name is loaded
and nothing else changed; with no name given twice it writes, for each name in order,
whether it was loaded, then, in reverse order, that it is loaded. When a module does not
load the command throws at it, and that name and every name before it on the line are left
unloaded, even those that were loaded before the command: only the names after it were
loaded again. -/
theorem mod_reload_leaves (loads : String → Bool) (names : List String) (m : Imports) :
    ((modReload loads names m).error = none →
      (∀ x, x ∈ (modReload loads names m).imports.names ↔ x ∈ m.names ∨ x ∈ names) ∧
      (names.Nodup → (modReload loads names m).out =
        names.map (fun x => if x ∈ m.names then x ++ " unloaded." else x ++ " is not loaded.") ++
          names.reverse.map (· ++ " loaded."))) ∧
    ∀ e, (modReload loads names m).error = some e →
      ∃ pre post, names = pre ++ e :: post ∧ loads e = false ∧
        ∀ x, x ∈ (modReload loads names m).imports.names ↔ (x ∈ m.names ∧ x ∉ names) ∨ x ∈ post := by
  have herase := mem_eraseEach (· ++ " unloaded.") names m
  refine ⟨fun h => ⟨fun x => ?_, fun hn => ?_⟩, fun e h => ?_⟩
  · simp only [modReload] at h ⊢
    rw [emplaceEach_ok loads h, herase, List.mem_reverse]
    tauto
  · simp only [modReload] at h ⊢
    rw [eraseEach_out _ _ hn, emplaceEach_out loads (List.nodup_reverse.mpr hn)
      (fun x hx hx' => ((herase x).mp hx').2 (List.mem_reverse.mp hx)) h]
  · simp only [modReload] at h ⊢
    obtain ⟨pre, post, hrev, hl, hx⟩ := emplaceEach_error loads h
    refine ⟨post.reverse, pre.reverse, ?_, hl, fun x => ?_⟩
    · rw [← List.reverse_reverse names, hrev]; simp
    · rw [hx, herase, List.mem_reverse]

end Charybdis.Mods
