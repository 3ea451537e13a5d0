/-!
# TOML documents

A document is a tree of tables. What a table admits depends on how it came to be:
`Origin` records that, and `amend` is the one way to reach a table along a path of
keys, making the tables that are missing on the way.
-/

namespace DeclPrinter.Toml

/-- How a table came to be. -/
inductive Origin where
  /-- A header names it. -/
  | named
  /-- A header names a table below it. -/
  | implied
  /-- A dotted key leads through it. -/
  | dotted
  /-- It is written as a value, in braces. -/
  | inline
  deriving DecidableEq, Repr, Inhabited

/-- A value. Numbers with a fraction or an exponent and points in time are kept as they are
written. -/
inductive Value where
  | string (value : String)
  | integer (value : Int)
  | float (text : String)
  | boolean (value : Bool)
  | time (text : String)
  | array (items : List Value)
  /-- Tables under one name, each begun by a header of its own. -/
  | tables (elements : List (List (String × Value)))
  | table (origin : Origin) (members : List (String × Value))
  deriving Repr, Inhabited

/-- The members of a table, by key. No key occurs twice. -/
abbrev Members : Type :=
  List (String × Value)

/-- The ways to reach a table. -/
inductive Route where
  /-- Along the path of a header. -/
  | header
  /-- Along a dotted key. -/
  | key
  deriving DecidableEq, Repr, Inhabited

/-- Whether a route leads through a table. A header reaches all but inline tables;
a dotted key reaches only tables that nothing has defined in full. -/
def Route.passes : Route → Origin → Bool
  | .header, .named | .header, .implied | .header, .dotted => true
  | .key, .implied | .key, .dotted => true
  | _, _ => false

/-- The origin of a table that a route makes on its way. -/
def Route.makes : Route → Origin
  | .header => .implied
  | .key => .dotted

namespace Members

/-- Gives a key this value, at the place where it was or else at the end. -/
def put (key : String) (value : Value) : Members → Members
  | [] => [(key, value)]
  | (name, old) :: rest =>
    if name = key then (key, value) :: rest else (name, old) :: put key value rest

/-- Adds a member, unless its key is taken. -/
def add (members : Members) (key : String) (value : Value) : Option Members :=
  match members.lookup key with
  | none => some (members ++ [(key, value)])
  | some _ => none

/-- Changes the table at the end of a path. Missing tables are made on the way; of
tables under one name, the last is meant. Refused where the route is barred or where
`change`, which is also told the origin of the table, refuses. -/
def amend (route : Route) (change : Origin → Members → Option Members) :
    List String → Origin → Members → Option Members
  | [], origin, members => change origin members
  | key :: path, _, members =>
    match members.lookup key with
    | none => do
      let inner ← amend route change path route.makes []
      return members.put key (.table route.makes inner)
    | some (.table origin inner) => do
      guard (route.passes origin)
      let inner ← amend route change path origin inner
      return members.put key (.table origin inner)
    | some (.tables elements) => do
      let last ← elements.getLast?
      let last ← amend route change path .named last
      return members.put key (.tables (elements.dropLast ++ [last]))
    | some _ => none

/-- Adds a member below a dotted key. A key of several parts may only add to a table
that dotted keys have made. -/
def addAt (members : Members) (path : List String) (key : String) (value : Value) :
    Option Members :=
  members.amend .key
    (fun origin inner => do
      guard (path.isEmpty || origin == .dotted)
      inner.add key value)
    path .named

/-- Begins the table that a header names: a new one, or one that is only implied. -/
def begin (members : Members) (path : List String) (key : String) : Option Members :=
  members.amend .header
    (fun _ inner =>
      match inner.lookup key with
      | none => some (inner.put key (.table .named []))
      | some (.table .implied found) => some (inner.put key (.table .named found))
      | some _ => none)
    path .named

/-- Begins one more table under the name of a header in double brackets. -/
def beginElement (members : Members) (path : List String) (key : String) : Option Members :=
  members.amend .header
    (fun _ inner =>
      match inner.lookup key with
      | none => some (inner.put key (.tables [[]]))
      | some (.tables elements) => some (inner.put key (.tables (elements ++ [[]])))
      | some _ => none)
    path .named

end Members

end DeclPrinter.Toml
