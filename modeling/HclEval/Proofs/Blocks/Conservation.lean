import HclEval.Proofs.Blocks.Bodies

/-!
No block of a document is lost. What its bodies say by themselves is kept in the table of the first
pass, or the pass reports what is in the way of a block. An attribute that comes after a block of
its name is the exception, as it is set without a look at what it replaces.
-/
namespace HclEval

open Reduction

namespace Node

def attributeName? : Node → Option String
  | named name _ _ => some name
  | _ => none

def blockNames? : Node → Option (List String)
  | block names _ _ => some names
  | _ => none

/-- The nodes inside a block, or inside the block that an attribute has for a value. -/
def body? : Node → Option (List Node)
  | block _ children _ | named _ [block _ children _] _ => some children
  | _ => none

theorem eq_of_body?_named {name : String} {children inside : List Node} {position : Option Position}
    (h : (named name children position).body? = some inside) :
    ∃ labels start, children = [block labels inside start] := by
  match children with
  | [] => cases h
  | [child] =>
    cases child <;> cases h
    exact ⟨_, _, rfl⟩
  | child :: _ :: _ => cases child <;> cases h

end Node

/-- The names in a body: those of attributes are static and distinct, and blocks have names. -/
structure Distinct (nodes : List Node) : Prop where
  static : ∀ node ∈ nodes, node.isKeyed = false
  attributes : (nodes.filterMap Node.attributeName?).Nodup
  blocks : ∀ node ∈ nodes, node.blockNames? ≠ some []

/-- Besides, no attribute comes after a block that begins with its name. -/
structure Orderly (nodes : List Node) : Prop extends Distinct nodes where
  attributesFirst : nodes.Pairwise fun earlier later => ∀ name rest,
    earlier.blockNames? = some (name :: rest) → later.attributeName? ≠ some name

inductive EveryBody (p : List Node → Prop) : List Node → Prop
  | intro {nodes : List Node} (self : p nodes)
      (inside : ∀ node ∈ nodes, ∀ body, node.body? = some body → EveryBody p body) :
      EveryBody p nodes

theorem EveryBody.of_body? {p : List Node → Prop} {nodes : List Node} (self : p nodes)
    (h : ∀ node ∈ nodes, node.body? = none) : EveryBody p nodes :=
  .intro self fun node hnode body hbody => by
    rw [h node hnode] at hbody
    cases hbody

theorem Orderly.pairwise_rootKey? {nodes : List Node} (h : Orderly nodes) :
    nodes.Pairwise fun earlier later => ∀ name,
      later.attributeName? = some name → earlier.rootKey? ≠ some name := by
  have hdistinct := h.attributes
  rw [List.Nodup, List.pairwise_filterMap] at hdistinct
  refine hdistinct.imp₂ (fun earlier later hne hfirst name hlater hroot => ?_) h.attributesFirst
  cases earlier <;> simp only [Node.rootKey?, reduceCtorEq] at hroot
  case named first _ _ =>
    cases hroot
    exact hne name rfl name hlater rfl
  case block names _ _ =>
    cases names with
    | nil => cases hroot
    | cons first rest =>
      cases hroot
      exact hfirst name rest rfl hlater

namespace Reduction

variable {reduce : Node → Eval Value} {table table' entries : Table Value} {name : String}
  {names : List String} {v : Value} {children nodes : List Node} {node : Node}
  {position : Option Position} {body : Body} {site : List ℕ → Path} {s s' : State}

theorem isCollection_of_enter (h : enter table names entries = some table')
    (hhead : names.head? = some name) (hv : table.get? name = some v) : v.isCollection = true := by
  match names with
  | [] => cases hhead
  | [first] =>
    cases hhead
    rw [enter_single, hv] at h
    cases v <;> first | rfl | cases h
  | first :: next :: rest =>
    cases hhead
    rw [enter_cons, hv] at h
    cases v <;> first | rfl | cases h

theorem get?_structureNode (hstatic : node.isKeyed = false) (hblock : node.blockNames? ≠ some [])
    (h : (structureNode reduce node).outcome table s = ((.ok (), table'), s'))
    (hname : node.rootKey? ≠ some name) : table'.get? name = table.get? name := by
  cases node
  case named first children position =>
    obtain ⟨v, -, rfl⟩ := named_ok h
    rw [Table.get?_insert, if_neg fun heq => hname (congrArg some heq)]
  case block names children position =>
    cases names with
    | nil => exact absurd rfl hblock
    | cons first rest =>
      obtain ⟨v, path, inner, -, rfl, -⟩ := Build.block_ok h
      rw [Document.get?_put_insert, if_neg fun heq => hname (congrArg some heq)]
  case keyed => cases hstatic
  all_goals
    cases h
    rfl

theorem contentsOf_named (h : (Node.named name children position).body? = none) :
    contentsOf reduce (.named name children position) = (do
      let v ← structureChildren reduce (.named name children position) children
      return .ofAttribute name v) := by
  match children with
  | [] => rfl
  | [child] => cases child <;> first | rfl | cases h
  | child :: _ :: _ => cases child <;> rfl

/-- How the first pass fares with nodes that say something, in a table where a body is kept: it
keeps that too, or finds something in the way of a block, or fails where an attribute has no
value. -/
inductive Fares (said : Eval Body) (body : Body) (s : State)
    (outcome : (Except Stop Unit × Table Value) × State) : Prop
  | kept {more : Body} {table : Table Value} {s' : State} {site : List ℕ → Path}
      (hsaid : said.outcome s = (.ok more, s')) (hrun : outcome = ((.ok (), table), s'))
      (hkept : (body ++ more).Kept (.map table) site) (hclear : (body ++ more).Clear)
  | obstructed {obstacle : Obstacle} {names : List String} {position : Option Position}
      {table : Table Value} {s' : State}
      (hrun : outcome = ((.error (.error (obstacle.error names position)), table), s'))
  | failed {stop : Stop} {table : Table Value} {s' t : State}
      (hsaid : said.outcome s = (.error stop, t)) (hrun : outcome = ((.error stop, table), s'))

theorem exists_kept_block (hkept : body.Kept (.map table) site) (hclear : body.Clear)
    (hnames : names ≠ []) (henter : enter table names entries = some table') {inner : Body}
    {inside : List ℕ → Path} (hinner : inner.Kept (.map entries) inside) (hinside : inner.Clear) :
    ∃ site', (body ++ .ofBlock names inner).Kept (.map table') site' ∧
      (body ++ .ofBlock names inner).Clear := by
  obtain ⟨site', hkept'⟩ := hkept.exists_block hnames henter hinner
  refine ⟨site', hkept', hclear.append_ofBlock hinside fun e he hhead => ?_⟩
  obtain ⟨_, hroot, hattributes⟩ := hkept.entries [] body rfl
  rw [hkept.root] at hroot
  cases hroot
  obtain ⟨w, hw, hgrows⟩ := hattributes e he
  rw [← hgrows.isCollection_eq]
  exact isCollection_of_enter henter hhead hw

theorem fares_attribute (hbody : (Node.named name children position).body? = none)
    (hkept : body.Kept (.map table) site) (hclear : body.Clear) (hname : table.get? name = none)
    (s : State) : Fares (contentsOf reduce (.named name children position)) body s
      ((structureNode reduce (.named name children position)).outcome table s) := by
  rw [contentsOf_named hbody, outcome_named]
  rcases hv : (structureChildren reduce (.named name children position) children).outcome s with
    ⟨e | v, s'⟩
  · exact .failed (Eval.outcome_bind_error hv _) rfl
  · obtain ⟨site', hkept'⟩ := hkept.exists_attribute (v := v) hname
    refine .kept (Eval.outcome_bind_ok hv ..) rfl hkept' (hclear.append_ofAttribute ?_)
    exact fun block hblock hhead => hkept.get?_ne_none hblock hhead hname

theorem fares_inside (hnames : names ≠ []) {room : Table Value → Table Value}
    (hroom : ∀ entries, enter table names entries = some (room entries))
    {outcome : (Except Stop Unit × Table Value) × State}
    (hinside : Fares (contents reduce children) ⟨[], []⟩ s
      ((structureEach reduce children).outcome [] s))
    (hfilled : ∀ entries s', (structureEach reduce children).outcome [] s =
      ((.ok (), entries), s') → outcome = ((.ok (), room entries), s'))
    (hstopped : ∀ stop entries s', (structureEach reduce children).outcome [] s =
      ((.error stop, entries), s') → ∃ table', outcome = ((.error stop, table'), s'))
    (hkept : body.Kept (.map table) site) (hclear : body.Clear) :
    Fares (do return .ofBlock names (← contents reduce children)) body s outcome := by
  rcases hinside with ⟨hsaid, hrun, hinner, hinnerClear⟩ | ⟨hrun⟩ | ⟨hsaid, hrun⟩
  · rw [Body.empty_append] at hinner hinnerClear
    obtain ⟨site', hkept', hclear'⟩ :=
      exists_kept_block hkept hclear hnames (hroom _) hinner hinnerClear
    exact .kept (Eval.outcome_bind_ok hsaid _) (hfilled _ _ hrun) hkept' hclear'
  · obtain ⟨table', hstop⟩ := hstopped _ _ _ hrun
    exact .obstructed hstop
  · obtain ⟨table', hstop⟩ := hstopped _ _ _ hrun
    exact .failed (Eval.outcome_bind_error hsaid _) hstop

theorem fares_block (hnames : names ≠ [])
    (hinside : ∀ s, Fares (contents reduce children) ⟨[], []⟩ s
      ((structureEach reduce children).outcome [] s))
    (hkept : body.Kept (.map table) site) (hclear : body.Clear) (s : State) :
    Fares (contentsOf reduce (.block names children position)) body s
      ((structureNode reduce (.block names children position)).outcome table s) := by
  cases names with
  | nil => exact absurd rfl hnames
  | cons name rest =>
    rw [structureNode, Build.outcome_block, contentsOf]
    cases hplace : place table (name :: rest) with
    | error obstacle => exact .obstructed rfl
    | ok result =>
      have hroom (entries : Table Value) : enter table (name :: rest) entries =
          some (Document.put result.1 result.2 (.map entries)) := by
        rw [enter, hplace]
        rfl
      refine fares_inside hnames hroom (hinside s) (fun entries s' hrun => ?_)
        (fun stop entries s' hrun => ⟨Document.put result.1 result.2 (.map entries), ?_⟩)
        hkept hclear
      · rw [hrun]
      · rw [hrun]

theorem fares_object {labels : List String} {start : Option Position}
    (hinside : ∀ s, Fares (contents reduce children) ⟨[], []⟩ s
      ((structureEach reduce children).outcome [] s))
    (hkept : body.Kept (.map table) site) (hclear : body.Clear) (hname : table.get? name = none)
    (s : State) :
    Fares (contentsOf reduce (.named name [.block labels children start] position)) body s
      ((structureNode reduce (.named name [.block labels children start] position)).outcome
        table s) := by
  rw [outcome_named, contentsOf, structureChildren, structureOnly, Eval.outcome_bind,
    Build.outcome_table]
  have hroom (entries : Table Value) :
      enter table [name] entries = some (table.insert name (.map entries)) := by
    rw [enter_single, hname]
    rfl
  refine fares_inside (List.cons_ne_nil _ _) hroom (hinside s) (fun entries s' hrun => ?_)
    (fun stop entries s' hrun => ⟨table, ?_⟩) hkept hclear
  · rw [hrun]
    rfl
  · rw [hrun]
    rfl

theorem fares_node (hstatic : node.isKeyed = false) (hblock : node.blockNames? ≠ some [])
    (hinside : ∀ children, node.body? = some children → ∀ s,
      Fares (contents reduce children) ⟨[], []⟩ s ((structureEach reduce children).outcome [] s))
    (hkept : body.Kept (.map table) site) (hclear : body.Clear)
    (hname : ∀ name, node.attributeName? = some name → table.get? name = none) (s : State) :
    Fares (contentsOf reduce node) body s ((structureNode reduce node).outcome table s) := by
  cases node
  case block names children position =>
    exact fares_block (fun h => hblock (congrArg some h)) (hinside children rfl) hkept hclear s
  case named name children position =>
    cases hbody : (Node.named name children position).body? with
    | none => exact fares_attribute hbody hkept hclear (hname name rfl) s
    | some inside =>
      obtain ⟨labels, start, rfl⟩ := Node.eq_of_body?_named hbody
      exact fares_object (hinside inside rfl) hkept hclear (hname name rfl) s
  case keyed => cases hstatic
  all_goals exact .kept rfl rfl (body.append_empty.symm ▸ hkept) (body.append_empty.symm ▸ hclear)

theorem fares_each (hstatic : ∀ node ∈ nodes, node.isKeyed = false)
    (hblocks : ∀ node ∈ nodes, node.blockNames? ≠ some [])
    (hnames : nodes.Pairwise fun earlier later => ∀ name,
      later.attributeName? = some name → earlier.rootKey? ≠ some name)
    (hinside : ∀ node ∈ nodes, ∀ children, node.body? = some children → ∀ s,
      Fares (contents reduce children) ⟨[], []⟩ s ((structureEach reduce children).outcome [] s))
    (hkept : body.Kept (.map table) site) (hclear : body.Clear)
    (hnew : ∀ node ∈ nodes, ∀ name, node.attributeName? = some name → table.get? name = none)
    (s : State) :
    Fares (contents reduce nodes) body s ((structureEach reduce nodes).outcome table s) := by
  induction nodes generalizing body table site s with
  | nil =>
    exact .kept rfl rfl (body.append_empty.symm ▸ hkept) (body.append_empty.symm ▸ hclear)
  | cons node rest ih =>
    rw [List.forall_mem_cons] at hstatic hblocks hinside hnew
    rw [List.pairwise_cons] at hnames
    rw [structureEach, contents, Build.outcome_bind]
    rcases fares_node hstatic.1 hblocks.1 hinside.1 hkept hclear hnew.1 s with
      ⟨hsaid, hrun, hkept₁, hclear₁⟩ | ⟨hrun⟩ | ⟨hsaid, hrun⟩
    · rename_i more table₁ s₁ site₁
      have hnew₁ : ∀ later ∈ rest, ∀ name, later.attributeName? = some name →
          table₁.get? name = none := fun later hlater name hname => by
        rw [get?_structureNode hstatic.1 hblocks.1 hrun (hnames.1 later hlater name hname)]
        exact hnew.2 later hlater name hname
      rw [hrun]
      rcases ih hstatic.2 hblocks.2 hnames.2 hinside.2 hkept₁ hclear₁ hnew₁ s₁ with
        ⟨hsaid', hrun', hkept', hclear'⟩ | ⟨hrun'⟩ | ⟨hsaid', hrun'⟩
      · rw [Body.append_assoc] at hkept' hclear'
        exact .kept ((Eval.outcome_bind_ok hsaid _).trans (Eval.outcome_bind_ok hsaid' _)) hrun'
          hkept' hclear'
      · exact .obstructed hrun'
      · exact .failed
          ((Eval.outcome_bind_ok hsaid _).trans (Eval.outcome_bind_error hsaid' _)) hrun'
    · rw [hrun]
      exact .obstructed rfl
    · rw [hrun]
      exact .failed (Eval.outcome_bind_error hsaid _) rfl

/-- The first pass, by induction on the bodies of a document. -/
theorem fares (hnodes : EveryBody Orderly nodes)
    (s : State) :
    Fares (contents reduce nodes) ⟨[], []⟩ s ((structureEach reduce nodes).outcome [] s) := by
  induction hnodes generalizing s with
  | intro self _ ih =>
    exact fares_each self.static self.blocks self.pairwise_rootKey? ih .empty .empty
      (fun _ _ _ _ => rfl) s

theorem place_through_value {lead : List String}
    (hv : (Value.map table).pointer? (lead ++ [name]) = some v) (h : v.isCollection = false)
    (rest : List String) :
    place table (lead ++ name :: rest) = .error (.value, lead ++ [name]) := by
  induction lead generalizing table with
  | nil =>
    obtain ⟨w, hget, hw⟩ := Option.bind_eq_some_iff.mp hv
    cases hw
    cases v <;> simp only [Value.isCollection, reduceCtorEq] at h <;>
      cases rest <;> simp [place, placeLast, hget, Except.bind]
  | cons first lead ih =>
    obtain ⟨w, hget, hw⟩ := Option.bind_eq_some_iff.mp hv
    obtain ⟨entries, rfl⟩ : ∃ entries, w = .map entries := by
      cases w
      case map entries => exact ⟨entries, rfl⟩
      all_goals cases lead <;> cases hw
    have hplace := ih hw
    cases hlead : lead ++ name :: rest with
    | nil => simp at hlead
    | cons next more =>
      rw [hlead] at hplace
      rw [List.cons_append, hlead]
      simp [place, hget, Except.bind, hplace]

/-- A block whose names lead to a value that is neither an object nor a list is reported with the
names up to that value. -/
theorem block_through_value_fails {lead rest : List String}
    (hv : (Value.map table).pointer? (lead ++ [name]) = some v) (h : v.isCollection = false)
    (s : State) :
    (structureNode reduce (.block (lead ++ name :: rest) children position)).outcome table s =
      ((.error (.error (.blockTraversesValue (".".intercalate (lead ++ [name])) position)), table),
        s) := by
  have hplace := place_through_value hv h rest
  cases hnames : lead ++ name :: rest with
  | nil => simp at hnames
  | cons first more =>
    rw [hnames] at hplace
    rw [structureNode, Build.outcome_block, hplace]
    rfl

end Reduction

/-- No block is lost: where the names in every body are static and distinct, and no attribute comes
after a block that begins with its name, a first pass that succeeds keeps every body, in a map of
its own with all that it says. If a block would go through an attribute whose value is neither an
object nor a list, the pass reports what is in the way. -/
theorem first_pass_keeps_blocks (reduce : Node → Eval Value) {nodes : List Node}
    (hnodes : EveryBody Orderly nodes) (s : State) :
    (∀ table s', (structureEach reduce nodes).outcome [] s = ((.ok (), table), s') →
      ∃ body site, (contents reduce nodes).outcome s = (.ok body, s') ∧
        body.Kept (.map table) site) ∧
    ∀ body s', (contents reduce nodes).outcome s = (.ok body, s') → ¬ body.Clear →
      ∃ obstacle names position table t, (structureEach reduce nodes).outcome [] s =
        ((.error (.error (Obstacle.error obstacle names position)), table), t) := by
  have hfares : Fares (contents reduce nodes) ⟨[], []⟩ s
      ((structureEach reduce nodes).outcome [] s) := fares hnodes s
  constructor
  · intro table s' h
    rcases hfares with ⟨hsaid, hrun, hkept, -⟩ | ⟨hrun⟩ | ⟨-, hrun⟩ <;> rw [h] at hrun
    · cases hrun
      rw [Body.empty_append] at hkept
      exact ⟨_, _, hsaid, hkept⟩
    · cases hrun
    · cases hrun
  · intro body s' h hclash
    rcases hfares with ⟨hsaid, -, -, hclear⟩ | ⟨hrun⟩ | ⟨hsaid, -⟩
    · rw [h] at hsaid
      cases hsaid
      exact absurd (Body.empty_append body ▸ hclear) hclash
    · exact ⟨_, _, _, _, _, hrun⟩
    · rw [h] at hsaid
      cases hsaid

def sharedNodes : List Node :=
  [.named "c" [.boolean true] none,
    .block ["a"] [.named "x" [.string "1"] none, .block ["b"] [.named "y" [.string "2"] none] none]
      none,
    .block ["a", "b"] [.named "y" [.string "3"] none] none]

def sharedTable : Table Value :=
  [("c", .bool true), ("a", .map [("x", .string "1"),
    ("b", .list [.map [("y", .string "2")], .map [("y", .string "3")]])])]

def obstructedNodes : List Node :=
  [.named "a" [.boolean true] none, .block ["a", "b"] [] none]

theorem orderly_leaf (name text : String) :
    EveryBody Orderly [.named name [.string text] none] :=
  .of_body? ⟨⟨by simp [Node.isKeyed], by simp [Node.attributeName?], by simp [Node.blockNames?]⟩,
    List.pairwise_singleton ..⟩ (by simp [Node.body?, Node.string])

theorem orderly_sharedNodes : EveryBody Orderly sharedNodes := by
  refine .intro ⟨⟨by decide, by decide, by decide⟩, ?_⟩ fun node hnode body hbody => ?_
  · simp [sharedNodes, Node.blockNames?, Node.attributeName?]
  · simp only [sharedNodes, List.mem_cons, List.not_mem_nil, or_false] at hnode
    rcases hnode with rfl | rfl | rfl <;> cases hbody
    · refine .intro ⟨⟨by decide, by decide, by decide⟩, ?_⟩ fun node hnode body hbody => ?_
      · simp [Node.blockNames?, Node.attributeName?]
      · simp only [List.mem_cons, List.not_mem_nil, or_false] at hnode
        rcases hnode with rfl | rfl <;> cases hbody
        exact orderly_leaf "y" "2"
    · exact orderly_leaf "y" "3"

theorem orderly_obstructedNodes : EveryBody Orderly obstructedNodes := by
  refine .intro ⟨⟨by decide, by decide, by decide⟩, ?_⟩ fun node hnode body hbody => ?_
  · simp [obstructedNodes, Node.blockNames?, Node.attributeName?]
  · simp only [obstructedNodes, List.mem_cons, List.not_mem_nil, or_false] at hnode
    rcases hnode with rfl | rfl <;> cases hbody
    exact .of_body? ⟨⟨by decide, by decide, by decide⟩, List.Pairwise.nil⟩ (by simp)

theorem first_pass_keeps_blocks_shared :
    (∃ body site, (contents (reduceNode emptySetting 4) sharedNodes).outcome {} = (.ok body, {}) ∧
      body.Kept (.map sharedTable) site) ∧
    ∃ obstacle names position table t,
      (structureEach (reduceNode emptySetting 4) obstructedNodes).outcome [] {} =
        ((.error (.error (Obstacle.error obstacle names position)), table), t) := by
  have hclash : ¬ (Body.ofAttribute "a" (.bool true) ++ .ofBlock ["a", "b"] ⟨[], []⟩).Clear := by
    intro h
    have hcollection := h [] _ rfl ("a", .bool true) (by simp [Body.ofAttribute])
      (["a", "b"], ⟨[], []⟩) (by simp [Body.ofBlock]) rfl
    cases hcollection
  have hkept := first_pass_keeps_blocks (reduceNode emptySetting 4) orderly_sharedNodes {}
  have hreported := first_pass_keeps_blocks (reduceNode emptySetting 4) orderly_obstructedNodes {}
  exact ⟨hkept.1 sharedTable {} rfl, hreported.2 _ {} rfl hclash⟩

def replacedNodes : List Node :=
  [.block ["a"] [.named "x" [.boolean true] none] none, .named "a" [.boolean false] none]

/-- An attribute replaces a block of its name, and nothing is reported. -/
theorem attribute_replaces_block : EveryBody Distinct replacedNodes ∧
    (structureEach (reduceNode emptySetting 4) replacedNodes).outcome [] {} =
      ((.ok (), [("a", .bool false)]), {}) ∧
    ∀ body site, (contents (reduceNode emptySetting 4) replacedNodes).outcome {} = (.ok body, {}) →
      ¬ body.Kept (.map [("a", .bool false)]) site := by
  refine ⟨.intro ⟨by decide, by decide, by decide⟩ fun node hnode body hbody => ?_, rfl,
    fun body site hbody hkept => ?_⟩
  · simp only [replacedNodes, List.mem_cons, List.not_mem_nil, or_false] at hnode
    rcases hnode with rfl | rfl <;> cases hbody
    exact .of_body? ⟨by decide, by decide, by decide⟩ (by simp [Node.body?, Node.boolean])
  · cases hbody
    obtain ⟨way, hsite, hkeys⟩ := hkept.nested [] _ 0 ["a"] _ rfl rfl
    obtain ⟨entries, hentries, -⟩ := hkept.entries [0] _ rfl
    rw [List.nil_append, hkept.root, List.nil_append] at hsite
    rw [hsite] at hentries
    cases way with
    | nil => cases hkeys
    | cons step rest =>
      cases step with
      | index i => cases hentries
      | key first =>
        obtain rfl : first = "a" := (List.cons.inj hkeys).1
        cases rest <;> cases hentries

end HclEval
