import HclEval.Error
import HclEval.Reduction.Path

/-!
Where a block goes. A block is stored under its names; all but the last must lead through maps,
and a block whose whole path is taken turns what is there into a list and becomes its last item.
-/
namespace HclEval.Reduction

inductive Obstacle where
  | array | value
  deriving DecidableEq, Repr

def Obstacle.error (obstacle : Obstacle) (names : List String) (position : Option Position) :
    Error :=
  match obstacle with
  | .array => .blockTraversesArray (".".intercalate names) position
  | .value => .blockTraversesValue (".".intercalate names) position

def placeLast (table : Table Value) (name : String) :
    Except (Obstacle × List String) (Table Value × Path) :=
  match table.get? name with
  | none => .ok (table.insert name (.map []), [.key name])
  | some (.map prior) =>
    .ok (table.insert name (.list [.map prior, .map []]), [.key name, .index 1])
  | some (.list items) =>
    .ok (table.insert name (.list (items ++ [.map []])), [.key name, .index items.length])
  | some _ => .error (.value, [name])

/-- Makes room for a block under its names. Answers the table with an empty map in place and the
location of that map; without names the location is the table itself. -/
def place (table : Table Value) : List String →
    Except (Obstacle × List String) (Table Value × Path)
  | [] => .ok (table, [])
  | [name] => placeLast table name
  | name :: rest =>
    let below : Except (Obstacle × List String) (Table Value) :=
      match table.get? name with
      | none => .ok []
      | some (.map entries) => .ok entries
      | some (.list _) => .error (.array, [])
      | some _ => .error (.value, [])
    match below.bind (place · rest) with
    | .ok (entries, path) => .ok (table.insert name (.map entries), .key name :: path)
    | .error (obstacle, names) => .error (obstacle, name :: names)

end HclEval.Reduction
