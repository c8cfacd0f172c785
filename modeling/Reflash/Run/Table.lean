import Reflash.Run.Host

set_option autoImplicit false

/-! # The table of actions

An action is named `namespace:verb`. Plugins bring a namespace each, with a handler for each verb;
the table is assembled before any run and does not change. An identifier is split at its first
colon, so a verb may hold colons and a namespace cannot. -/

namespace Reflash

/-- What carries out an action: it gets the payload and the context, and returns the steps that
are still to be run for it, if any. -/
abbrev Handler (σ : Type) := Value → Context σ → Job σ Value

/-- The verbs of one namespace. A verb without a handler is listed but cannot be run. -/
abbrev Verbs (σ : Type) := List (String × Option (Handler σ))

/-- The namespaces with their verbs, each name once. -/
structure ActionTable (σ : Type) where
  namespaces : List (String × Verbs σ)

namespace ActionTable

variable {σ : Type}

/-- Whether a name is among the first components of a list of pairs. -/
def taken {α : Type} (name : String) (pairs : List (String × α)) : Bool :=
  pairs.any fun p => p.1 == name

/-- Verbs with each name once: a later handler takes the place of an earlier one. -/
def distinctVerbs (verbs : Verbs σ) : Verbs σ :=
  verbs.foldl (fun acc v =>
    if taken v.1 acc then acc.map fun old => if old.1 == v.1 then v else old
    else acc ++ [v]) []

/-- Adds plugins one after the other. A namespace can be registered once. -/
def addAll (table : List (String × Verbs σ)) :
    List (String × Verbs σ) → Fallible (List (String × Verbs σ))
  | [] => .ok table
  | (name, verbs) :: plugins =>
    if taken name table then
      .error (.invalid ("Namespace '" ++ name ++ "' is already registered"))
    else addAll (table ++ [(name, distinctVerbs verbs)]) plugins

/-- The table that plugins make. -/
def ofPlugins (plugins : List (String × Verbs σ)) : Fallible (ActionTable σ) :=
  (addAll [] plugins).map ActionTable.mk

/-- The namespace and the verb of an identifier; without a colon it is all namespace. -/
def splitId (id : String) : String × String :=
  (Text.splitFirst ':' id).getD (id, "")

/-- The handler of an action. -/
def handler? (table : ActionTable σ) (id : String) : Option (Handler σ) :=
  let (ns, verb) := splitId id
  ((table.namespaces.lookup ns).bind fun verbs => verbs.lookup verb).join

/-- The handler of an action, which must be registered. -/
def lookup (table : ActionTable σ) (id : String) : Fallible (Handler σ) :=
  match table.handler? id with
  | some handler => .ok handler
  | none => .error (.unknownAction id)

/-- Whether an action is registered. -/
def has (table : ActionTable σ) (id : String) : Bool :=
  (table.handler? id).isSome

/-- The identifiers of all actions, in the order of registration. -/
def actionIds (table : ActionTable σ) : List String :=
  table.namespaces.flatMap fun (ns, verbs) => verbs.map fun (verb, _) => ns ++ ":" ++ verb

end ActionTable

/-- An action taken apart for dispatch. -/
structure Dispatch where
  id : String
  ns : String
  verb : String
  payload : Value

namespace Action

/-- The parts of an action's identifier: both must be there. -/
def dispatch (a : Action) : Fallible Dispatch := do
  let id ← a.id.shown
  match Text.splitFirst ':' id with
  | some (ns, verb) =>
    if ns.isEmpty || verb.isEmpty then .error (.unknownAction id)
    else .ok ⟨id, ns, verb, a.payload⟩
  | none => .error (.unknownAction id)

/-- The action that any value stands for: a mapping with one key. -/
def ofValue : Value → Fallible Action
  | .mapping [(id, payload)] => .ok ⟨id, payload⟩
  | v => do throw (.unknownAction (← v.exact))

end Action

end Reflash
