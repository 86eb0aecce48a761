import ScimBridge.Mapping.PathTable
import ScimBridge.Proofs.Json.Fields
import ScimBridge.Resource.Group
import ScimBridge.Resource.User

/-!
# Exposed backend attributes

A deployment exposes the usual backend attributes of users and groups, and those of its mappings.
Whatever a resource holds, converting it writes no other ones (`User.keys_toBackend_subset`,
`Group.keys_toBackend_subset`), and the tables of paths lead to no other ones.
-/

namespace ScimBridge

/-- What is copied is stored under the name that it is copied to. -/
theorem Resource.keys_copyGiven_subset {names : List String} {target : Fields Value}
    (h : target.keys ⊆ names) {backendName : String} (hname : backendName ∈ names)
    (source : Fields Value) (name : String) :
    (Resource.copyGiven source name backendName target).keys ⊆ names := by
  unfold Resource.copyGiven
  split
  · exact Fields.keys_put_subset h hname _
  · exact h

namespace User

variable (c : MappingConfig)

/-- The backend attributes of users that are exposed without a mapping. -/
def usualAttributes : List String :=
  ["userName", "displayName", "password", "accountStatus", "givenName", "sn", "cn", "middleName",
   "mail", "telephoneNumber"] ++ passedThrough

/-- The backend attributes of users that a deployment exposes. -/
def exposed : List String := usualAttributes ++ c.mappings.map (·.backendAttribute)

variable {c}

theorem exposed_of_usual {name : String} (h : name ∈ usualAttributes) : name ∈ exposed c :=
  List.mem_append_left _ h

theorem exposed_of_mapping {m : Mapping} (h : m ∈ c.mappings) : m.backendAttribute ∈ exposed c :=
  List.mem_append_right _ (List.mem_map_of_mem h)

variable (resource : Fields Value) {target : Fields Value} (h : target.keys ⊆ exposed c)

include h

theorem keys_putStatus_subset : (putStatus resource target).keys ⊆ exposed c := by
  unfold putStatus
  split
  · exact Fields.keys_put_subset h (exposed_of_usual (by decide)) _
  · exact h

theorem keys_putName_subset : (putName resource target).keys ⊆ exposed c := by
  unfold putName
  split
  · refine Fields.keys_foldl_subset h fun acc hacc p hp => ?_
    have hname : ∀ p ∈ nameParts, p.1 ∈ usualAttributes := by decide
    exact Resource.keys_copyGiven_subset hacc (exposed_of_usual (hname p hp)) _ _
  · exact h

theorem keys_putContacts_subset : (putContacts resource target).keys ⊆ exposed c := by
  refine Fields.keys_foldl_subset h fun acc hacc p hp => ?_
  have hname : ∀ p ∈ contacts, p.2 ∈ usualAttributes := by decide
  split
  · exact hacc
  · exact Fields.keys_put_subset hacc (exposed_of_usual (hname p hp)) _

theorem keys_putPassed_subset : (putPassed c resource target).keys ⊆ exposed c := by
  refine Fields.keys_foldl_subset h fun acc hacc name hname => ?_
  split
  · exact hacc
  · exact Resource.keys_copyGiven_subset hacc
      (exposed_of_usual (List.mem_append_right _ hname)) _ _

theorem keys_putMapped_subset {m : Mapping} (hm : m ∈ c.mappings) :
    (putMapped resource target m).keys ⊆ exposed c := by
  unfold putMapped
  extract_lets source
  split
  · exact h
  · exact Fields.keys_put_subset h (exposed_of_mapping hm) _

omit h in
/-- Only exposed attributes of users are written. -/
theorem keys_toBackend_subset : (toBackend c resource).keys ⊆ exposed c := by
  have hplain : (["userName", "displayName", "password"].foldl
      (fun acc name => Resource.copyGiven resource name name acc) []).keys ⊆ exposed c := by
    refine Fields.keys_foldl_subset (List.nil_subset _) fun acc hacc name hname => ?_
    have husual : ∀ name ∈ ["userName", "displayName", "password"], name ∈ usualAttributes := by
      decide
    exact Resource.keys_copyGiven_subset hacc (exposed_of_usual (husual name hname)) _ _
  have hcore := keys_putContacts_subset resource
    (keys_putName_subset resource (keys_putStatus_subset resource hplain))
  exact Fields.keys_foldl_subset (keys_putPassed_subset resource hcore)
    fun acc hacc m hm => keys_putMapped_subset resource hacc hm

end User

namespace Group

/-- The backend attributes of groups that are exposed. -/
def exposed : List String := ["name", "description", "members"]

/-- Only exposed attributes of groups are written. -/
theorem keys_toBackend_subset (collections : Collections) (resource : Fields Value) :
    (toBackend collections resource).keys ⊆ exposed := by
  have hnamed : ([("displayName", "name"), ("description", "description")].foldl
      (fun acc p => Resource.copyGiven resource p.1 p.2 acc) []).keys ⊆ exposed := by
    refine Fields.keys_foldl_subset (List.nil_subset _) fun acc hacc p hp => ?_
    have hname : ∀ p ∈ [("displayName", "name"), ("description", "description")],
        p.2 ∈ exposed := by decide
    exact Resource.keys_copyGiven_subset hacc (hname p hp) _ _
  unfold toBackend
  extract_lets named
  split
  · exact Fields.keys_put_subset hnamed (by decide) _
  · exact hnamed

end Group

namespace Filter.PathTable

/-- The paths of users lead to exposed attributes. -/
theorem exposed_of_mem_user {c : MappingConfig} {p : String × String} (h : p ∈ user c) :
    p.2 ∈ User.exposed c := by
  refine List.foldlRecOn
    (motive := fun table : Filter.PathTable => ∀ p ∈ table, p.2 ∈ User.exposed c)
    c.mappings enter ?_ ?_ p h
  · have husual : ∀ p ∈ usualUser, p.2 ∈ User.usualAttributes := by decide
    exact fun p hp => User.exposed_of_usual (husual p hp)
  · intro table htable m hm p hp
    have hmapped := User.exposed_of_mapping hm
    rcases Fields.mem_put hp with hvalue | hp
    · exact hvalue ▸ hmapped
    · rcases Fields.mem_put hp with hvalue | hp
      · exact hvalue ▸ hmapped
      · exact htable p hp

theorem exposed_of_mem_group {p : String × String} (h : p ∈ group) : p.2 ∈ Group.exposed :=
  (by decide : ∀ p ∈ group, p.2 ∈ Group.exposed) p h

end Filter.PathTable

end ScimBridge
