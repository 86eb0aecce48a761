import ScimBridge.Filter.Rendering
import ScimBridge.Mapping.Basic

/-!
# Backend names of attribute paths

Each resource type has a table of the paths that filters and patches may use. For users the mappings
of the deployment follow the usual entries; a mapping whose path is in the table replaces its entry.
-/

namespace ScimBridge

namespace Filter.PathTable

/-- The usual paths of users. -/
def usualUser : Filter.PathTable :=
  [("userName", "userName"),
   ("displayName", "displayName"),
   ("active", "accountStatus"),
   ("name.givenName", "givenName"),
   ("name.familyName", "sn"),
   ("name.formatted", "cn"),
   ("name.middleName", "middleName"),
   ("emails.value", "mail"),
   ("phoneNumbers.value", "telephoneNumber"),
   ("title", "title"),
   ("preferredLanguage", "preferredLanguage"),
   ("locale", "locale")]

/-- The paths of groups. -/
def group : Filter.PathTable :=
  [("displayName", "name"), ("description", "description"), ("members.value", "members")]

/-- Enter one mapping under both spellings of its path. -/
def enter (table : Filter.PathTable) (m : Mapping) : Filter.PathTable :=
  Fields.put (Fields.put table m.path m.backendAttribute) m.qualifiedPath m.backendAttribute

/-- The paths of users with the mappings of a deployment. -/
def user (c : MappingConfig) : Filter.PathTable := c.mappings.foldl enter usualUser

/-- The paths of a resource type. -/
def ofType (type : ResourceType) (c : MappingConfig) : Filter.PathTable :=
  match type with
  | .group => group
  | _ => user c

end Filter.PathTable

end ScimBridge
