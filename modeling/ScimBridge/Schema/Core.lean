import ScimBridge.Schema.Document

/-!
# Core attributes

The attributes that users and groups always have, whatever the backend says.
-/

namespace ScimBridge

namespace Schema

/-- A described text attribute. -/
def textAttribute (name description : String) : Attribute :=
  { name, description := .string description }

/-- The identifier of every resource. -/
def idAttribute : Attribute :=
  { textAttribute "id"
      "Unique identifier for the SCIM resource as defined by the service provider" with
    mutability := .readOnly
    returned := .always
    caseExact := true
    uniqueness := .server }

/-- A multi-valued contact with the usual four sub-attributes. -/
def contactAttribute (name description : String) : Attribute :=
  { name
    type := .complex
    multiValued := true
    description := .string description
    subAttributes :=
      [textAttribute "value" ("The " ++ name ++ " value"),
       textAttribute "display" "A human-readable name, primarily used for display purposes",
       { textAttribute "type"
          "A label indicating the attribute's function, e.g. 'work' or 'home'" with
         canonicalValues := [.string "work", .string "home", .string "other"] },
       { name := "primary"
         type := .boolean
         description := .string "Indicates the preferred value for this attribute" }] }

/-- The metadata of every resource. -/
def metaAttribute : Attribute :=
  { name := "meta"
    type := .complex
    mutability := .readOnly
    description := .string "A complex attribute containing resource metadata"
    subAttributes :=
      [{ textAttribute "resourceType" "The name of the resource type of the resource" with
         caseExact := true
         mutability := .readOnly },
       { textAttribute "created"
          "The DateTime that the resource was added to the service provider" with
         type := .dateTime
         mutability := .readOnly },
       { textAttribute "lastModified"
          "The most recent DateTime that the details of this resource were updated" with
         type := .dateTime
         mutability := .readOnly },
       { textAttribute "location" "The URI of the resource being returned" with
         type := .reference
         referenceTypes := [.string "uri"]
         caseExact := true
         mutability := .readOnly },
       { textAttribute "version" "The version of the resource being returned" with
         caseExact := true
         mutability := .readOnly }] }

/-- The attributes of every user. -/
def coreUser : List Attribute :=
  [idAttribute,
   { textAttribute "userName"
      "Unique identifier for the User, typically used to authenticate" with
     required := true
     uniqueness := .server },
   { name := "name"
     type := .complex
     description := .string "The components of the user's real name"
     subAttributes :=
       [textAttribute "formatted"
          "The full name, including all middle names, titles, and suffixes",
        textAttribute "familyName" "The family name of the User",
        textAttribute "givenName" "The given name of the User",
        textAttribute "middleName" "The middle name(s) of the User",
        textAttribute "honorificPrefix" "The honorific prefix(es) of the User",
        textAttribute "honorificSuffix" "The honorific suffix(es) of the User"] },
   textAttribute "displayName" "The name of the User, suitable for display to end-users",
   contactAttribute "emails" "Email addresses for the user",
   contactAttribute "phoneNumbers" "Phone numbers for the User",
   { name := "active"
     type := .boolean
     description :=
       .string "A Boolean value indicating the User's administrative status" },
   { textAttribute "password" "The User's cleartext password, used to set or replace it" with
     mutability := .writeOnly
     returned := .never },
   textAttribute "title" "The user's title, such as 'Vice President'",
   textAttribute "preferredLanguage"
     "Indicates the User's preferred written or spoken language",
   textAttribute "locale"
     "Used to indicate the User's default location for localization purposes",
   textAttribute "timezone" "The User's time zone in the 'Olson' time zone database format",
   { name := "profileUrl"
     type := .reference
     referenceTypes := [.string "external"]
     description :=
       .string "A fully qualified URL pointing to a page representing the User's online profile" },
   metaAttribute]

/-- The attributes of every group. -/
def coreGroup : List Attribute :=
  [idAttribute,
   { textAttribute "displayName" "A human-readable name for the Group" with required := true },
   { name := "members"
     type := .complex
     multiValued := true
     description := .string "A list of members of the Group"
     subAttributes :=
       [{ textAttribute "value" "Identifier of the member of this Group" with
          mutability := .immutable },
        { name := "$ref"
          type := .reference
          referenceTypes := [.string "User", .string "Group"]
          mutability := .immutable
          description :=
            .string "The URI corresponding to a SCIM resource that is a member of this Group" },
        { textAttribute "type"
           "A label indicating the type of resource, e.g. 'User' or 'Group'" with
          mutability := .immutable
          canonicalValues := [.string "User", .string "Group"] }] },
   textAttribute "description" "A description of the Group",
   metaAttribute]

end Schema

end ScimBridge
