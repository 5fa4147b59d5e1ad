import HclEval.Reduction.Basic
import HclEval.Source.Nodes
import HclEval.Text.Utf8

/-!
Evaluating documents one after the other. A session keeps the functions, lookups and variables that
documents may use, and every call made so far; each document starts from nothing else.
-/
namespace HclEval

structure Options where
  /-- Answer what there is of a document instead of failing. -/
  ignoreErrors : Bool := false
  maxDepth : Nat := 64

structure Session where
  functions : Table Function
  lookups : Table Lookup := []
  vars : Table Value := []
  options : Options := {}
  calls : List Call := []

def textOfBytes (bytes : List UInt8) : Except Error String :=
  match Text.Utf8.decode? bytes with
  | some text => .ok (String.ofList text)
  | none => .error .unreadable

namespace Session

def setting (session : Session) : Setting :=
  ⟨session.functions, session.lookups, session.vars, session.options.maxDepth⟩

def evaluate (session : Session) (nodes : List Node) : Except Stop Document × Session :=
  let (result, state) := Reduction.run session.setting session.calls nodes
  let result := match result with
    | .ok () => .ok state.document
    | .error stop => if session.options.ignoreErrors then .ok state.document else .error stop
  (result, { session with calls := state.calls })

def nodes (session : Session) (source : String) : Except Error (List Node) :=
  if session.options.ignoreErrors then .ok (readNodesLeniently source) else readNodes source

def parse (session : Session) (source : String) : Except Stop Document × Session :=
  match session.nodes source with
  | .ok nodes => session.evaluate nodes
  | .error error => (.error (.error error), session)

def parseInput (session : Session) (input : Except Error String) :
    Except Stop Document × Session :=
  match input with
  | .ok source => session.parse source
  | .error error => (.error (.error error), session)

/-- Evaluates a document without variables and takes its entries as variables. -/
def parseVariables (session : Session) (source : String) : Except Stop Unit × Session :=
  let (result, after) := { session with vars := [] : Session }.parse source
  match result with
  | .ok document =>
    (.ok (), { after with vars := session.vars.merge document })
  | .error stop => (.error stop, { after with vars := session.vars })

def setVariables (session : Session) (values : List (String × Value)) : Session :=
  { session with vars := session.vars.merge values }

def addFunction (session : Session) (name : String) (f : Function) : Session :=
  { session with functions := session.functions.insert name f }

def addLookup (session : Session) (provider : String) (lookup : Lookup) : Session :=
  { session with lookups := session.lookups.insert provider lookup }

end Session
end HclEval
