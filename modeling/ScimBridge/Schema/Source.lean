import ScimBridge.Backend.Config
import ScimBridge.Schema.Cache

/-!
# Where property definitions come from

The configuration of managed objects is fetched from the backend or taken from a saved document.
-/

namespace ScimBridge

namespace Schema

/-- Property definitions from the backend, which is asked anew for each object. -/
def backendSource : Source (StateT Backend.Client Backend.Exchange) := fun object => do
  match ← (Backend.ManagedConfig.fetchEntry (.string object)).run with
  | .error e => return .error (.backend e)
  | .ok entry => return .ok (entry.bind fun members =>
      Backend.ManagedConfig.properties? (.object members))

/-- The objects that a saved document lists. A text or an object in place of the list holds none. -/
def savedEntries (document : Value) : Except LoadFault (List (Fields Value)) :=
  match document.members? with
  | some members =>
    match Value.filled? members "objects" with
    | some (.array items) => .ok (items.filterMap Value.members?)
    | none | some (.string _) | some (.object _) | some (.table _) => .ok []
    | some v => .error (.notAList v.kindName)
  | none => .error (.notAnObject document.kindName)

/-- Property definitions from a saved document. -/
def savedSource {m : Type → Type} [Monad m] (document : Value) : Source m := fun object =>
  return (savedEntries document).map fun entries =>
    (entries.find? fun e => (e.get? "name").any (· == .string object)).bind fun members =>
      Backend.ManagedConfig.properties? (.object members)

end Schema

end ScimBridge
