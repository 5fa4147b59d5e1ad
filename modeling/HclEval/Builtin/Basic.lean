import HclEval.Builtin.Collections
import HclEval.Builtin.Encoding
import HclEval.Builtin.Numeric
import HclEval.Builtin.Text

/-!
All built-in functions, in the order in which they are listed.
-/
namespace HclEval.Builtin

def functions (now : Nat) : Table Function :=
  textFunctions now ++ numericFunctions ++ collectionFunctions ++ encodingFunctions

end HclEval.Builtin
