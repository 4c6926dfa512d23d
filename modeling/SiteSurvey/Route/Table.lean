import SiteSurvey.OrderedMap
import SiteSurvey.Route.Argument
import SiteSurvey.Route.Namespace
import SiteSurvey.Source.Literal

/-!
# Route tables

A raw table holds the texts of route tuples by namespace; a route table holds the routes that these
texts declare. Merging raw tables, the last table that holds a namespace gives its routes.
-/

namespace SiteSurvey

structure Route where
  name : String
  hasArgs : Bool
  args : List Route.Argument
  /-- The name by which the route is looked up. -/
  qualifiedName : String
  deriving DecidableEq, Repr

namespace Route

/-- The texts of route tuples by namespace. -/
abbrev RawTable := OrderedMap Namespace (List String)

abbrev Table := OrderedMap Namespace (List Route)

/-! ## One tuple -/

/-- The first non-empty name that a tuple's text gives its route. -/
def routeName? (tuple : List Char) : Option (List Char) :=
  (Source.assignedValues "name".toList tuple).find? (!·.isEmpty)

/-- The route that a tuple's text declares; a tuple that names no route declares none. -/
def ofTuple? (space : Namespace) (tuple : List Char) : Option Route :=
  (routeName? tuple).map fun name =>
    let args := (placeholders tuple).map Argument.ofToken
    { name := String.ofList name
      hasArgs := !args.isEmpty
      args := args
      qualifiedName := space.qualify (String.ofList name) }

/-! ## Tables -/

/-- The routes that the tuples of a raw table declare. -/
def Table.ofRaw (raw : RawTable) : Table :=
  raw.mapEntries fun space tuples => tuples.filterMap fun tuple => ofTuple? space tuple.toList

/-- The routes of many raw tables, merged in order. -/
def Table.ofRawTables (raws : List RawTable) : Table :=
  Table.ofRaw (OrderedMap.merge raws)

end Route

end SiteSurvey
