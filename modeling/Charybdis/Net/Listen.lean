import Mathlib.Data.List.Basic
import Mathlib.Data.List.Nodup

/-!
# `s_listen`: the listeners, by name

The module keeps `std::list<net::listener> listeners`. A listener is built from a name
and its options by `net::listener`'s constructor, which is not under `src/` and may throw:
the model takes what it throws, if anything, as an oracle `starts`.

`load_listener(name, opts)` refuses a name already loaded, so no two listeners share a
name over any run of the module's functions (`names_nodup_reachable`). That loader is
`static`, and its one caller, the body of `init_listeners()`, is commented out; the
exported `load_listener(name)` returns `false` and does nothing.

`_listener_proffer`, which the constructor is given to admit clients, reads the run level
and the client tables, none of which is under `src/`; it is not modelled.
-/

namespace Charybdis.Listen

/-- A `net::listener`: its `name()` and the `json::object` it was built from. -/
structure Listener where
  name : String
  opts : String
  deriving DecidableEq, Repr

/-- `loaded_listener(name)`: `find_if` by `name()`. -/
def loadedListener (name : String) (listeners : List Listener) : Bool :=
  listeners.any (·.name == name)

/-- `unload_listener(name)`: `false` if none has the name; otherwise `remove_if` every
listener of that name, and `true`. -/
def unloadListener (name : String) (listeners : List Listener) : Bool × List Listener :=
  if !loadedListener name listeners then (false, listeners)
  else (true, listeners.filter (·.name != name))

/-- The line `load_listener(name, opts)` logs when it catches `e`. -/
def failedToInit (name what : String) : String :=
  "Failed to init listener \x27" ++ name ++ "\x27 :" ++ what

/-- The `static` `load_listener(name, opts)`: a name already loaded throws `error`; else
`emplace_back` builds the listener, which may throw. Whatever is thrown is caught, logged,
and turned into `false`. Returns the result, the list, and the line logged. -/
def loadListenerWith (starts : String → String → Option String) (name opts : String)
    (listeners : List Listener) : Bool × List Listener × Option String :=
  if loadedListener name listeners then
    (false, listeners,
      some (failedToInit name ("A listener with the name \x27" ++ name ++ "\x27 is already loaded")))
  else match starts name opts with
    | none => (true, listeners ++ [⟨name, opts⟩], none)
    | some what => (false, listeners, some (failedToInit name what))

/-- The exported `load_listener(name)`: `bool ret{false}; return ret;` -/
def loadListener (_name : String) (listeners : List Listener) : Bool × List Listener :=
  (false, listeners)

/-- `console_cmd__net__listen__load`: the line it writes. -/
def netListenLoad (name : String) (listeners : List Listener) : List Listener × String :=
  let r := loadListener name listeners
  (r.2, if r.1 then "loaded listener \x27" ++ name ++ "\x27"
    else "failed to load listener \x27" ++ name ++ "\x27")

/-- `console_cmd__net__listen__unload`: the line it writes. -/
def netListenUnload (name : String) (listeners : List Listener) : List Listener × String :=
  let r := unloadListener name listeners
  (r.2, if r.1 then "unloaded listener \x27" ++ name ++ "\x27"
    else "failed to unload listener \x27" ++ name ++ "\x27")

/-- What changes `listeners`. -/
inductive Action
  /-- The module is loaded; `init_listeners()` runs unless `nolisten` is set. -/
  | onLoad (nolisten : Bool)
  /-- The module is unloaded: `listeners.clear()`. -/
  | onUnload
  | netListenLoad (name : String)
  | netListenUnload (name : String)
  /-- A call of the `static` loader, which no code of `src/` makes. -/
  | loadWith (name opts : String)

/-- One action. `init_listeners()` has its body commented out. -/
def step (starts : String → String → Option String) (listeners : List Listener) :
    Action → List Listener
  | .onLoad _ => listeners
  | .onUnload => []
  | .netListenLoad name => (netListenLoad name listeners).1
  | .netListenUnload name => (netListenUnload name listeners).1
  | .loadWith name opts => (loadListenerWith starts name opts listeners).2.1

/-- The lists a run of the module reaches from the empty list it starts with. -/
inductive Reachable (starts : String → String → Option String) (exported : Action → Prop) :
    List Listener → Prop
  | init : Reachable starts exported []
  | step {listeners : List Listener} (a : Action) : exported a →
      Reachable starts exported listeners → Reachable starts exported (step starts listeners a)

/-! ## No two listeners share a name -/

theorem loadedListener_iff (name : String) (listeners : List Listener) :
    loadedListener name listeners = true ↔ name ∈ listeners.map (·.name) := by
  simp [loadedListener]

/-- Every action keeps the names distinct. -/
theorem step_nodup (starts : String → String → Option String) {listeners : List Listener}
    (h : (listeners.map (·.name)).Nodup) (a : Action) :
    ((step starts listeners a).map (·.name)).Nodup := by
  cases a with
  | onLoad => exact h
  | onUnload => exact List.nodup_nil
  | netListenLoad => exact h
  | netListenUnload name =>
    simp only [step, netListenUnload, unloadListener]
    split
    · exact h
    · exact (List.filter_sublist _).map _ |>.nodup h
  | loadWith name opts =>
    simp only [step, loadListenerWith]
    split
    · exact h
    · next hl =>
      split
      · rw [List.map_append, List.nodup_append]
        refine ⟨h, List.nodup_singleton _, ?_⟩
        simpa [loadedListener_iff] using hl
      · exact h

/-- **No two listeners share a name.** Over every run of the module's functions, the
`static` loader included, the listeners' names are distinct: `load_listener` looks the
name up before it builds, and `unload_listener` removes every listener of its name. -/
theorem names_nodup_reachable {starts : String → String → Option String}
    {exported : Action → Prop} {listeners : List Listener}
    (hr : Reachable starts exported listeners) : (listeners.map (·.name)).Nodup := by
  induction hr with
  | init => exact List.nodup_nil
  | step a _ _ ih => exact step_nodup starts ih a

/-- Run through a second call of the `static` loader with a name already loaded. -/
theorem names_nodup_loaded_twice :
    Reachable (fun _ _ => none) (fun _ => True)
      [⟨"public", "a"⟩] ∧ ((([⟨"public", "a"⟩] : List Listener)).map (·.name)).Nodup :=
  have hr : Reachable (fun _ _ => none) (fun _ => True) [⟨"public", "a"⟩] :=
    (Reachable.init.step (.loadWith "public" "a") trivial).step
      (.loadWith "public" "b") trivial
  ⟨hr, names_nodup_reachable hr⟩

end Charybdis.Listen
