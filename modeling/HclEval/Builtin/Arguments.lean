import HclEval.Call

/-!
Arguments of the built-in functions. They are lenient: an argument that is missing or of the
wrong type makes the result `null`, not an error.
-/
namespace HclEval.Builtin

def stringAt? (arguments : List Value) (i : Nat) : Option String :=
  arguments[i]?.bind Value.string?

def numberAt? (arguments : List Value) (i : Nat) : Option Number :=
  arguments[i]?.bind Value.number?

def listAt? (arguments : List Value) (i : Nat) : Option (List Value) :=
  arguments[i]?.bind Value.list?

/-- A function that depends on its arguments only and does not fail; `none` stands for `null`. -/
def total (f : List Value → Option Value) : Function :=
  fun _ arguments => .ok (Value.ofOption (f arguments))

end HclEval.Builtin
