/-!
# JSON values

The members of an object keep the order in which they were written. A number with a fraction or
an exponent, and the names `NaN` and `Infinity`, are kept as they are spelled: nothing here
computes with them.
-/

namespace RawHtmlLint

/-- A JSON value. -/
inductive Json where
  | null
  | bool (value : Bool)
  | int (value : Int)
  /-- A number that is not an integer, as it is spelled. -/
  | real (spelling : String)
  | str (value : String)
  | arr (items : List Json)
  | obj (members : List (String × Json))
  deriving Inhabited

namespace Json

/-- The value of a member; the last one counts if the name occurs more than once. -/
def member? (name : String) : Json → Option Json
  | .obj members => members.reverse.lookup name
  | _ => none

/-- The text of a string. -/
def str? : Json → Option String
  | .str s => some s
  | _ => none

/-- The value of an integer. -/
def int? : Json → Option Int
  | .int n => some n
  | _ => none

/-- The value of a truth value. -/
def bool? : Json → Option Bool
  | .bool b => some b
  | _ => none

/-- The items of an array. -/
def items? : Json → Option (List Json)
  | .arr items => some items
  | _ => none

/-- The members of an object. -/
def members? : Json → Option (List (String × Json))
  | .obj members => some members
  | _ => none

/-- The texts of an array that holds only strings. -/
def strings? (j : Json) : Option (List String) := j.items?.bind (·.mapM str?)

/-- An array of strings. -/
def ofStrings (texts : List String) : Json := .arr (texts.map .str)

/-- A value that may be missing. -/
def ofOption {α : Type} (f : α → Json) : Option α → Json
  | some a => f a
  | none => .null

/-- The members of `old`, those that `new` names with their new values, then the other members
of `new`. -/
def merge (old new : List (String × Json)) : List (String × Json) :=
  new.foldl (fun members m =>
    if members.any (·.1 == m.1) then
      members.map fun n => if n.1 == m.1 then (n.1, m.2) else n
    else members ++ [m]) old

end Json

end RawHtmlLint
