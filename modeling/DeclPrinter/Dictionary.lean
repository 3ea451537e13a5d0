/-!
# Values by name, in order

Import sections and settings list their entries in the order of the code
points of the names, whatever order they were met in, so the order belongs
to the type: an insertion puts the entry where it belongs.
-/

namespace DeclPrinter

/-- Values by name; `put` and `putNew` keep the names in ascending order. -/
structure Dictionary (α : Type) where
  /-- The names with their values, names ascending. -/
  entries : List (String × α)
  deriving Repr, Inhabited, DecidableEq

namespace Dictionary

variable {α : Type}

/-- The dictionary without entries. -/
def empty : Dictionary α :=
  ⟨[]⟩

/-- The value of a name. -/
def get? (dictionary : Dictionary α) (name : String) : Option α :=
  dictionary.entries.lookup name

/-- Inserts an entry into ascending entries. An entry of the same name is kept
or replaced as `merge` says, which is given the old value first. -/
def insertWith (merge : α → α → α) (name : String) (value : α) :
    List (String × α) → List (String × α)
  | [] => [(name, value)]
  | (key, old) :: rest =>
    if name < key then (name, value) :: (key, old) :: rest
    else if name = key then (key, merge old value) :: rest
    else (key, old) :: insertWith merge name value rest

/-- Gives the name this value, in place of any value it had. -/
def put (dictionary : Dictionary α) (name : String) (value : α) : Dictionary α :=
  ⟨insertWith (fun _ new => new) name value dictionary.entries⟩

/-- Gives the name this value unless it has one. -/
def putNew (dictionary : Dictionary α) (name : String) (value : α) : Dictionary α :=
  ⟨insertWith (fun old _ => old) name value dictionary.entries⟩

end Dictionary

end DeclPrinter
