import StyleLang.Bindings
import StyleLang.Diagnostic

/-!
# Allowed properties

A table says which properties a declaration may set and which types each of them takes. Names of
properties are compared without regard to the case of ASCII letters (`PropertyTable.fold`).
-/

namespace StyleLang

structure PropertyTable where
  types : Bindings (List ValueType)

namespace PropertyTable

/-- The name under which a property is listed. -/
def fold (property : String) : String :=
  String.ofList (property.toList.map Char.toLower)

/-- The table of a list of properties with their types, where a later property counts. -/
def ofList (entries : List (String × List ValueType)) : PropertyTable :=
  ⟨.ofList (entries.map fun (property, types) => (fold property, types))⟩

/-- The properties of colors and sizes. -/
def standard : PropertyTable :=
  ofList
    [("color", [.color]), ("background-color", [.color]), ("width", [.pixel, .percentage]),
      ("height", [.pixel, .percentage])]

def colorOnly : PropertyTable :=
  ofList [("color", [.color])]

/-- The types a property takes, if it is allowed at all. -/
def accepted? (table : PropertyTable) (property : String) : Option (List ValueType) :=
  table.types.find? (fold property)

def contains (table : PropertyTable) (property : String) : Bool :=
  (table.accepted? property).isSome

/-- Whether two tables allow the same properties with the same types in the same order. -/
def sameAs (a b : PropertyTable) : Bool :=
  a.types.sameAs b.types

/-- The names of types as a choice. -/
def choice (types : List ValueType) : String :=
  " or ".intercalate (types.map ValueType.name)

/-- What is wrong with setting a property to a value of a type. -/
def fault? (table : PropertyTable) (property : String) (received : ValueType) : Option Cause :=
  match table.accepted? property with
  | none => some (.unknownProperty property)
  | some types =>
    if received ∈ types then none
    else some (.propertyType property (choice types) received)

theorem fault?_eq_none_iff {table : PropertyTable} {property : String} {received : ValueType} :
    table.fault? property received = none ↔
      ∃ types, table.accepted? property = some types ∧ received ∈ types := by
  unfold fault?
  cases table.accepted? property with
  | none => simp
  | some types => simp

end PropertyTable

end StyleLang
