import CoreWarden.Json.Value

/-! Descriptions of the JSON values that the service takes and gives. -/
namespace CoreWarden.OpenApi

open Json (Value)

inductive Schema where
  | string
  | boolean
  | dateTime
  | integer (bits : Nat)
  /-- An integer without a sign; the format names the bits as for one with a sign. -/
  | natural (bits : Nat)
  /-- An object of any kind. -/
  | free
  | reference (name : String)
  | list (item : Schema)
  | nullable (content : Schema)

abbrev Members := List (String × Value)

def noted (description : Option String) (members : Members) : Members :=
  members ++ description.toList.map fun d => ("description", .string d)

def typed (name : String) : Members := [("type", .string name)]

namespace Schema

def format (bits : Nat) : String × Value := ("format", .string ("int" ++ toString bits))

def pathTo (name : String) : Value := .string ("#/components/schemas/" ++ name)

/-- What may be absent is marked; a reference is put into a list of its own for that. -/
def members : Schema → Members
  | string => typed "string"
  | boolean => typed "boolean"
  | dateTime => typed "string" ++ [("format", .string "date-time")]
  | integer bits => typed "integer" ++ [format bits]
  | natural bits => typed "integer" ++ [format bits, ("minimum", .nat 0)]
  | free => typed "object"
  | reference name => [("$ref", pathTo name)]
  | list item => typed "array" ++ [("items", .object item.members)]
  | nullable (reference name) =>
    [("allOf", .array [.object (reference name).members]), ("nullable", .bool true)]
  | nullable content => content.members ++ [("nullable", .bool true)]

def value (s : Schema) : Value := .object s.members

end Schema

structure Property where
  name : String
  schema : Schema
  description : Option String := none
  required : Bool := true

namespace Property

def plain (name : String) (schema : Schema) : Property := { name, schema }

def described (name : String) (schema : Schema) (description : String) : Property :=
  { name, schema, description := some description }

/-- A member that need not be written. -/
def defaulted (name : String) (schema : Schema) : Property := { name, schema, required := false }

def value (p : Property) : Value := .object (noted p.description p.schema.members)

def isNullable (p : Property) : Bool :=
  match p.schema with
  | .nullable _ => true
  | _ => false

/-- A member that may be null may also be missing. -/
def isRequired (p : Property) : Bool := p.required && !p.isNullable

end Property

/-- One way to fill in a choice with data: its name, which is written under the tag, and the
members that come with it. -/
structure Alternative where
  name : String
  properties : List Property := []
  description : Option String := none

inductive Component where
  | record (properties : List Property)
  /-- One of several names. -/
  | names (options : List String)
  /-- A record whose member `tag` says which alternative it is. -/
  | choice (tag : String) (alternatives : List Alternative)

def recordMembers (properties : List Property) (more : List (String × Value)) : Members :=
  let required := (properties.filter (·.isRequired)).map (·.name) ++ more.map (·.1)
  typed "object" ++ [("required", .array (required.map .string)),
    ("properties", .object (properties.map (fun p => (p.name, p.value)) ++ more))]

def nameMembers (options : List String) : Members :=
  typed "string" ++ [("enum", .array (options.map .string))]

namespace Component

def members : Component → Members
  | record properties => recordMembers properties []
  | names options => nameMembers options
  | choice tag alternatives =>
    [("oneOf", .array (alternatives.map fun a =>
        .object (noted a.description
          (recordMembers a.properties [(tag, .object (nameMembers [a.name]))])))),
      ("discriminator", .object [("propertyName", .string tag)])]

def value (description : Option String) (c : Component) : Value := .object (noted description c.members)

end Component

end CoreWarden.OpenApi
