import Charybdis.Lemmas

/-!
# `m::event::sign`: what of the content a signature covers

`event::sign(event, contents)` does not sign the content it is given. It pushes onto the
event a `content` built from a few members of `contents`, chosen by the event's type in an
`if` chain, and signs that. So a signature survives redaction: it depends on the content
only through those members.

`json::iov`, `json::value`, the `stringify` of an `m::event` and the ed25519 key are not
under src/. They are the fields of `Json`, and every result here holds whatever they do.

`sign_eq_byTable` shows that the `if` chain is exactly the table of kept keys the spec
gives (`keep`): the first type of the table that the event's type matches selects its
keys, the members are read in the table's order, and a type in no row signs `{}`. From
it, `sign_content_allowlist`: two contents that agree on the kept keys of the event's type
sign alike, both failing with the same exception or both giving the same signature.
-/

namespace Charybdis.M

/-- What `event::sign` calls that is not under src/. Iovs are of type `I`, values of type
`V`, exceptions of type `E` and signatures of type `S`. -/
structure Json (I V E S : Type) where
  /-- `json::iov::at(key)`: the member's value, or the exception it throws. -/
  get : I → String → Except E V
  /-- `value == "..."`, as `type == "m.room.member"` compares. -/
  is : V → String → Bool
  /-- A `json::members` object, as a value. -/
  members : List (String × V) → V
  /-- A string literal as a value. -/
  lit : String → V
  /-- `json::iov::push{iov, {key, value}}`: the iov with one more member, or the exception. -/
  push : I → String → V → Except E I
  /-- `event::sign(const m::event &)`: stringify the event and sign the preimage. -/
  signEvent : I → Except E S

section
variable {I V E S : Type} (j : Json I V E S)

/-- Push `content` onto the event and sign it. -/
def signWith (event : I) (content : V) : Except E S := do
  j.signEvent (← j.push event "content" content)

/-- `event::sign(json::iov &event, const json::iov &contents)`. -/
def sign (event contents : I) : Except E S := do
  let type ← j.get event "type"
  if j.is type "m.room.aliases" then
    signWith j event (j.members [("aliases", ← j.get contents "aliases")])
  else if j.is type "m.room.create" then
    signWith j event (j.members [("creator", ← j.get contents "creator")])
  else if j.is type "m.room.history_visibility" then
    signWith j event (j.members [("history_visibility", ← j.get contents "history_visibility")])
  else if j.is type "m.room.join_rules" then
    signWith j event (j.members [("join_rule", ← j.get contents "join_rule")])
  else if j.is type "m.room.member" then
    signWith j event (j.members [("membership", ← j.get contents "membership")])
  else if j.is type "m.room.power_levels" then
    signWith j event (j.members
      [("ban", ← j.get contents "ban"),
       ("events", ← j.get contents "events"),
       ("events_default", ← j.get contents "events_default"),
       ("kick", ← j.get contents "kick"),
       ("redact", ← j.get contents "redact"),
       ("state_default", ← j.get contents "state_default"),
       ("users", ← j.get contents "users"),
       ("users_default", ← j.get contents "users_default")])
  else
    signWith j event (j.lit "{}")

/-! ## The spec's table -/

/-- The content keys a signature keeps, per event type, as the spec lists them. -/
def keep : List (String × List String) :=
  [("m.room.aliases", ["aliases"]),
   ("m.room.create", ["creator"]),
   ("m.room.history_visibility", ["history_visibility"]),
   ("m.room.join_rules", ["join_rule"]),
   ("m.room.member", ["membership"]),
   ("m.room.power_levels",
     ["ban", "events", "events_default", "kick", "redact", "state_default", "users",
      "users_default"])]

/-- The row of `keep` for a type value: the first whose type it is. -/
def row (type : V) : Option (String × List String) :=
  keep.find? fun r => j.is type r.1

/-- The kept keys of a type value; none for a type in no row. -/
def keysOf (type : V) : List String :=
  ((row j type).map Prod.snd).getD []

/-- The members of `contents` at `keys`, in order, failing at the first missing one. -/
def pick (contents : I) (keys : List String) : Except E (List (String × V)) :=
  keys.mapM fun k => do return (k, ← j.get contents k)

theorem pick_nil (contents : I) : pick j contents [] = pure [] := rfl

theorem pick_cons (contents : I) (k : String) (keys : List String) :
    pick j contents (k :: keys) =
      j.get contents k >>= fun v => pick j contents keys >>= fun vs => pure ((k, v) :: vs) := by
  simp only [pick, List.mapM_cons, bind_assoc, pure_bind]

/-- `event::sign` by the spec's table. -/
def signByTable (event contents : I) : Except E S := do
  let type ← j.get event "type"
  match row j type with
  | some (_, keys) => signWith j event (j.members (← pick j contents keys))
  | none => signWith j event (j.lit "{}")

/-! ## The `if` chain is the table -/

/-- **The `if` chain of `event::sign` computes the spec's table.** -/
theorem sign_eq_byTable (event contents : I) :
    sign j event contents = signByTable j event contents := by
  unfold sign signByTable
  cases j.get event "type" with
  | error e => rfl
  | ok type =>
    simp only [except_ok_bind, row, keep, List.find?_cons, List.find?_nil]
    -- one case per test of the `if` chain, in its order
    by_cases h₁ : j.is type "m.room.aliases" <;>
      simp only [h₁, ↓reduceIte, Bool.false_eq_true, pick_cons, pick_nil, bind_assoc, pure_bind]
    by_cases h₂ : j.is type "m.room.create" <;>
      simp only [h₂, ↓reduceIte, Bool.false_eq_true, pick_cons, pick_nil, bind_assoc, pure_bind]
    by_cases h₃ : j.is type "m.room.history_visibility" <;>
      simp only [h₃, ↓reduceIte, Bool.false_eq_true, pick_cons, pick_nil, bind_assoc, pure_bind]
    by_cases h₄ : j.is type "m.room.join_rules" <;>
      simp only [h₄, ↓reduceIte, Bool.false_eq_true, pick_cons, pick_nil, bind_assoc, pure_bind]
    by_cases h₅ : j.is type "m.room.member" <;>
      simp only [h₅, ↓reduceIte, Bool.false_eq_true, pick_cons, pick_nil, bind_assoc, pure_bind]
    by_cases h₆ : j.is type "m.room.power_levels" <;>
      simp only [h₆, ↓reduceIte, Bool.false_eq_true, pick_cons, pick_nil, bind_assoc, pure_bind]

/-- `pick` reads `contents` only at `keys`. -/
theorem pick_congr {c₁ c₂ : I} {keys : List String}
    (h : ∀ k ∈ keys, j.get c₁ k = j.get c₂ k) : pick j c₁ keys = pick j c₂ keys := by
  induction keys with
  | nil => rfl
  | cons k ks ih =>
    rw [pick_cons, pick_cons, h k (List.mem_cons_self k ks),
      ih fun k' hk' => h k' (List.mem_cons_of_mem k hk')]

/-- **A signature covers only the kept keys of the event's type.** If two contents agree,
in presence and value, on every key `keep` lists for the event's type, signing the event
with either gives the same result: the same exception, or the same signature. -/
theorem sign_content_allowlist (event c₁ c₂ : I)
    (h : ∀ type, j.get event "type" = .ok type → ∀ k ∈ keysOf j type, j.get c₁ k = j.get c₂ k) :
    sign j event c₁ = sign j event c₂ := by
  rw [sign_eq_byTable, sign_eq_byTable]
  unfold signByTable
  cases ht : j.get event "type" with
  | error e => rfl
  | ok type =>
    simp only [except_ok_bind]
    have hk := h type ht
    cases hr : row j type with
    | none => rfl
    | some r =>
      obtain ⟨_, keys⟩ := r
      simp only [keysOf, hr, Option.map_some', Option.getD_some] at hk
      simp only [pick_congr j hk]

end

/-- A `Json` to run the model on: an iov is its list of members, a value is its text, and
the signature of a finished iov is the iov itself, so that equal signatures are equal
preimages. -/
def textJson : Json (List (String × String)) String String (List (String × String)) where
  get iov key := match iov.lookup key with
    | some v => .ok v
    | none => .error key
  is v s := v == s
  members ms := toString ms
  lit s := s
  push iov key v := .ok (iov ++ [(key, v)])
  signEvent iov := .ok iov

/-- Redacting `displayname` from the content of a member event leaves its signature. -/
theorem sign_member_redacted :
    sign textJson [("type", "m.room.member")] [("membership", "join"), ("displayname", "x")] =
      sign textJson [("type", "m.room.member")] [("membership", "join")] :=
  sign_content_allowlist textJson _ _ _ fun t ht k hk => by
    obtain rfl := Except.ok.inj (ht.symm : Except.ok t = .ok "m.room.member")
    simp [keysOf, row, keep, textJson] at hk
    subst hk
    rfl

end Charybdis.M
