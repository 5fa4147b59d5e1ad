import HclEval.Node.Basic

/-!
Structural equality of trees, positions included, and its agreement with `=`.
-/
namespace HclEval.Node

mutual

def same : Node → Node → Bool
  | block names children position, block names' children' position' =>
    names == names' && sameAll children children' && position == position'
  | named name children position, named name' children' position' =>
    name == name' && sameAll children children' && position == position'
  | keyed name children position, keyed name' children' position' =>
    name.same name' && sameAll children children' && position == position'
  | map entries, map entries' => sameAll entries entries'
  | array elements, array elements' => sameAll elements elements'
  | literal kind raw, literal kind' raw' => kind == kind' && raw == raw'
  | type marker, type marker' => marker == marker'
  | operator symbol, operator symbol' => symbol == symbol'
  | reference segments, reference segments' => sameAll segments segments'
  | segment name, segment name' => name == name'
  | call name arguments spread, call name' arguments' spread' =>
    name == name' && sameAll arguments arguments' && spread == spread'
  | group children, group children' => sameAll children children'
  | interpolation children, interpolation children' => sameAll children children'
  | comprehension keyVariable valueVariable collection key value condition grouping,
    comprehension keyVariable' valueVariable' collection' key' value' condition' grouping' =>
    keyVariable == keyVariable' && valueVariable == valueVariable' &&
      collection.same collection' && sameOption key key' && value.same value' &&
      sameOption condition condition' && grouping == grouping'
  | _, _ => false
termination_by structural node => node

def sameAll : List Node → List Node → Bool
  | [], [] => true
  | node :: rest, node' :: rest' => node.same node' && sameAll rest rest'
  | _, _ => false

def sameOption : Option Node → Option Node → Bool
  | none, none => true
  | some node, some node' => node.same node'
  | _, _ => false

end

instance : BEq Node := ⟨same⟩

end HclEval.Node
