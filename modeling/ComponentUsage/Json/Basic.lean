import ComponentUsage.Table
/-!
# JSON values

The values of the JSON data format. Whole numbers have any size, other numbers
have 64 bits; an object keeps its members in order.
-/

namespace ComponentUsage

/-- A JSON value. -/
inductive Json where
  | null
  | bool (b : Bool)
  | int (n : Int)
  | float (x : Float)
  | text (s : String)
  | list (items : List Json)
  | object (members : List (String × Json))
  deriving Inhabited

namespace Json

/-- The kinds of values. -/
inductive Kind where
  | null
  | bool
  | int
  | float
  | text
  | list
  | object
  deriving DecidableEq, Repr

/-- The kind of a value. -/
def kind : Json → Kind
  | .null => .null
  | .bool _ => .bool
  | .int _ => .int
  | .float _ => .float
  | .text _ => .text
  | .list _ => .list
  | .object _ => .object

/-- The word for a kind in messages. -/
def Kind.word : Kind → String
  | .null => "NoneType"
  | .bool => "bool"
  | .int => "int"
  | .float => "float"
  | .text => "str"
  | .list => "list"
  | .object => "dict"

/-- The object that members make when they are added one by one: a name that
comes again keeps its place and takes the new value. -/
def ofMembers (members : List (String × Json)) : Json :=
  .object (members.foldl (fun done (n, v) => upsert n v done) [])

/-- The value of a member. -/
def member? (name : String) : List (String × Json) → Option Json :=
  List.lookup name

/-- A list of texts. -/
def texts (l : List String) : Json := .list (l.map .text)

end Json
end ComponentUsage
