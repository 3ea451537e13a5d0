import DeclPrinter.Tree.Query

/-!
# Structs that hold themselves by value

A struct holds another one by value when a field has the other's name as its type. A
struct that holds itself this way, directly or through others, has no finite size, so
a package must not have one.

The search goes depth first from each struct in turn. It keeps the path it is on and
the structs it is done with. Meeting a struct on the path closes a cycle; a struct
that is done with leads to none. The path never holds a struct twice, so a search as
deep as there are structs, and one step more to meet the closing struct, sees
everything.
-/

namespace DeclPrinter.Check

/-- The structs of a package in order of declaration. -/
def structsOf (tree : DeclTree) (package : PackageId) : List TypeId :=
  (tree.typesIn package).filter tree.isStruct

/-- The struct of the package that a field holds by value, if it holds one. -/
def heldStruct? (tree : DeclTree) (package : PackageId) (field : FieldId) : Option TypeId :=
  match (tree.field field).type with
  | .simple symbol => (tree.typeNamed? package symbol.name).filter tree.isStruct
  | _ => none

/-- The structs that a struct holds by value, field by field. -/
def heldStructs (tree : DeclTree) (package : PackageId) (id : TypeId) : List TypeId :=
  (tree.type id).fields.filterMap (heldStruct? tree package)

/-- The part of a path from a node on, closed by that node. -/
def closeAt (path : List TypeId) (node : TypeId) : List TypeId :=
  path.dropWhile (· != node) ++ [node]

/-- Searches from a node. `path` leads from the root of the search to the node, and
from the nodes in `done` no cycle is reached. Yields the closed walk found, or the
nodes done with afterwards. -/
def searchFrom (next : TypeId → List TypeId) :
    Nat → List TypeId → List TypeId → TypeId → Except (List TypeId) (List TypeId)
  | 0, _, done, _ => .ok done
  | depth + 1, path, done, node =>
    if done.contains node then .ok done
    else if path.contains node then .error (closeAt path node)
    else do
      let done ← (next node).foldlM (searchFrom next depth (path ++ [node])) done
      return node :: done

/-- A closed walk through the nodes, if a search from them in turn finds one. -/
def cycle? (next : TypeId → List TypeId) (nodes : List TypeId) : Option (List TypeId) :=
  match nodes.foldlM (searchFrom next (nodes.length + 1) []) [] with
  | .error cycle => some cycle
  | .ok _ => none

/-- A cycle of structs of the package that hold each other by value, first struct
repeated at the end. -/
def valueCycle? (tree : DeclTree) (package : PackageId) : Option (List TypeId) :=
  cycle? (heldStructs tree package) (structsOf tree package)

end DeclPrinter.Check
