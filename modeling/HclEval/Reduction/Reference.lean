import HclEval.Node.Display
import HclEval.Reduction.State

/-!
Resolution of references. The first segment selects where to start: a variable of an enclosing
`for` expression, the `locals` blocks (`local`), the variables that were set or declared (`var`),
the data lookups (`data`), or a top level entry. The others select children. Inside the document
values are evaluated in place, so whoever reads them later sees the same value.
-/
namespace HclEval.Reduction

variable (reduce : Node → Eval Value)

mutual

def reduceValue : Value → Eval Value
  | .map entries => return .map (← reduceEntries entries)
  | .list items => return .list (← reduceItems items)
  | .node tree => reduce tree
  | value => pure value
termination_by structural value => value

def reduceItems : List Value → Eval (List Value)
  | [] => pure []
  | value :: rest => return (← reduceValue value) :: (← reduceItems rest)

def reduceEntries : List (String × Value) → Eval (List (String × Value))
  | [] => pure []
  | (key, value) :: rest => return (key, ← reduceValue value) :: (← reduceEntries rest)

end

def slot? (path : Path) : Eval (Option Value) := return (← get).document.slot? path

/-- Evaluates what is at a location, unless that has been done, and stores the value there. -/
def forceSlot (path : Path) : Eval Unit := do
  match ← slot? path with
  | some (.node tree) =>
    let value ← reduce tree
    modify fun state => { state with document := state.document.put path value }
  | _ => pure ()

def childSteps : Value → List Step
  | .map entries => entries.map (Step.key ·.1)
  | .list items => (List.range items.length).map Step.index
  | _ => []

def settle : (depth : Nat) → Path → Eval Unit
  | 0, _ => throw .exhausted
  | depth + 1, path => do
    match ← slot? path with
    | some (.node _) => forceSlot reduce path
    | some value => (childSteps value).forM fun step => settle depth (path ++ [step])
    | none => pure ()

inductive Cursor where
  | value (value : Value)
  | slot (path : Path)
  | locals
  | vars
  | data
  | provider (name : String)

def origin? (state : State) (name : String) : Option Cursor :=
  match state.scopes.findSome? (·.get? name) with
  | some value => some (.value value)
  | none =>
    match name with
    | "local" => some .locals
    | "var" => some .vars
    | "data" => some .data
    | _ => if Table.contains state.document name then some (.slot [.key name]) else none

/-- The accessor that a segment stands for; strings select by name, numbers by position. -/
def accessor? : Node → Eval (Option Accessor)
  | .segment name => pure (some (.name name))
  | .array (index :: _) => do
    match ← reduce index with
    | .string name => pure (some (.name name))
    | .number x => pure (some (.index x))
    | _ => pure none
  | _ => pure none

/-- A variable that is not set: the `default` of its block, `null` for a block without one. -/
def variableDefault? (document : Document) (name : String) : Option Cursor := do
  let blocks ← (← Table.get? document "variable").map?
  let path : Path := [.key "variable", .key name]
  let (definition, path) ← match ← blocks.get? name with
    | .list definitions =>
      let last ← definitions.getLast?
      pure (last, path ++ [.index (definitions.length - 1)])
    | definition => pure (definition, path)
  match definition with
  | .map entries =>
    if Table.contains entries "default" then return .slot (path ++ [.key "default"])
    else return .value .null
  | _ => return .slot path

variable (setting : Setting) (depth : Nat)

def variableAt? (document : Document) : Accessor → Option Cursor
  | .name name =>
    match setting.vars.get? name with
    | some value => some (.value value)
    | none => variableDefault? document name
  | .index x => do
    let (_, value) ← setting.vars[← x.index?]?
    return .value value

/-- The location of a `data` block, the last of several with the same labels. -/
def dataPath? (document : Document) (provider inst : String) : Option Path :=
  let path : Path := [.key "data", .key provider, .key inst]
  match document.slot? path with
  | some (.list blocks) =>
    if blocks.isEmpty then none else some (path ++ [.index (blocks.length - 1)])
  | _ => some path

def dataProperties? (provider inst : String) : Eval (Option (Table Value)) := do
  let some path := dataPath? (← get).document provider inst | return none
  settle reduce depth path
  return (← slot? path).bind Value.map?

/-- The result of a data lookup, which is made once; a lookup that fails or is not registered
gives `null`. -/
def dataLookup (provider inst : String) : Eval (Option Value) := do
  match (← get).cache.get? provider inst with
  | some value => return some value
  | none =>
    let some lookup := setting.lookups.get? provider | return some .null
    let some properties ← dataProperties? reduce depth provider inst | return none
    let before := (← get).calls
    Eval.record (.lookup provider inst properties)
    let value : Value := match lookup before properties with
      | .ok result => .map result
      | .error _ => .null
    modify fun state => { state with cache := state.cache.insert provider inst value }
    return some value

def force : Value → Eval Value
  | .node tree => reduce tree
  | value => pure value

def advance (accessor : Accessor) : Cursor → Eval (Option Cursor)
  | .value value => return ((← force reduce value).select? accessor).map .value
  | .slot path => do
    forceSlot reduce path
    let some step := (← slot? path).bind (·.stepTo? accessor) | return none
    return some (.slot (path ++ [step]))
  | .locals => do
    let document := (← get).document
    match accessor with
    | .name name => return (document.localPath? name).map .slot
    | .index _ => return ((Value.map document.locals).select? accessor).map .value
  | .vars => return variableAt? setting (← get).document accessor
  | .data =>
    match accessor with
    | .name provider => return some (.provider provider)
    | .index _ => return none
  | .provider provider =>
    match accessor with
    | .name inst => return (← dataLookup reduce setting depth provider inst).map .value
    | .index _ => return none

def finish : Cursor → Eval (Option Value)
  | .value value => return some (← reduceValue reduce value)
  | .slot path => do
    settle reduce depth path
    slot? path
  | .locals => do
    settle reduce depth [.key "locals"]
    return some (← reduceValue reduce (.map (← get).document.locals))
  | .vars => return some (← reduceValue reduce (.map setting.vars))
  | .data => return some (← reduceValue reduce (← get).cache.toValue)
  | .provider provider => do
    let some results := Table.get? (← get).cache provider | return none
    return some (← reduceValue reduce (.map results))

/-- Follows segments from a cursor; `none` where they lead nowhere. -/
def follow : Option Cursor → List Node → Eval (Option Value)
  | none, _ => pure none
  | some cursor, [] => finish reduce setting depth cursor
  | some cursor, segment :: rest => do
    let some accessor ← accessor? reduce segment | return none
    follow (← advance reduce setting depth accessor cursor) rest

def resolveSegments : List Node → Eval (Option Value)
  | [] => pure none
  | .segment name :: rest => do follow reduce setting depth (origin? (← get) name) rest
  | first :: rest => do
    let value ← reduce first
    follow reduce setting depth (if value.isUnresolved then none else some (.value value)) rest

/-- The value a reference leads to, or the reference itself. A reference that is being resolved
already is a cycle, and no more than `maxDepth` are resolved at the same time. -/
def resolveReference (segments : List Node) : Eval Value := do
  let path := Node.pathText segments
  let resolving := (← get).resolving
  if resolving.contains path then Eval.fail (.cyclicReference path)
  else if setting.maxDepth ≤ resolving.length then Eval.fail (.recursionLimit setting.maxDepth)
  else
    match ← Eval.withReference path (resolveSegments reduce setting depth segments) with
    | some value => pure value
    | none => pure (.node (.reference segments))

end HclEval.Reduction
