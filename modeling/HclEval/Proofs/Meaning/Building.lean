import HclEval.Proofs.Meaning.Basic
import HclEval.Proofs.Meaning.Shape

/-!
The first pass entry by entry. A block or an attribute only changes the entry of its root key, and
what it makes of that entry depends neither on the others nor on the calls before. So the entry of
a key is made by the nodes with that root key, whatever stands between them.
-/
namespace HclEval

open Filter Reduction

def Node.rootKey? : Node → Option String
  | .named name _ _ | .block (name :: _) _ _ => some name
  | _ => none

namespace Reduction

theorem Build.outcome_block (name : String) (names : List String) (position : Option Position)
    (body : Build Unit) (table : Table Value) (s : State) :
    (Build.block (name :: names) position body).outcome table s =
      match place table (name :: names) with
      | .ok (table', path) =>
        (((body.outcome [] s).1.1, Document.put table' path (.map (body.outcome [] s).1.2)),
          (body.outcome [] s).2)
      | .error (obstacle, names) =>
        ((.error (.error (obstacle.error names position)), table), s) := by
  rw [Build.outcome_block_eq]
  cases hplace : place table (name :: names) with
  | ok result =>
    have hwithin := Build.outcome_within result.2 body result.1 s
    rw [place_at? hplace] at hwithin
    exact hwithin
  | error obstacle => rfl

theorem Build.block_ok {name : String} {names : List String} {position : Option Position}
    {body : Build Unit} {table table' : Table Value} {s s' : State}
    (h : (Build.block (name :: names) position body).outcome table s = ((.ok (), table'), s')) :
    ∃ v rest inner, body.outcome [] s = ((.ok (), inner), s') ∧
      table' = Document.put (table.insert name v) (.key name :: rest) (.map inner) ∧
      ∀ u : Table Value, u.get? name = table.get? name →
        place u (name :: names) = .ok (u.insert name v, .key name :: rest) := by
  rw [Build.outcome_block] at h
  cases hplace : place table (name :: names) with
  | error obstacle =>
    rw [hplace] at h
    cases h
  | ok result =>
    rw [hplace] at h
    obtain ⟨v, rest, htable, hpath, hroom⟩ := place_entry hplace
    rcases hbody : body.outcome [] s with ⟨⟨r, inner⟩, s₁⟩
    simp only [hbody, htable, hpath, Prod.mk.injEq] at h
    obtain ⟨⟨rfl, rfl⟩, rfl⟩ := h
    rw [hpath] at hroom
    exact ⟨v, rest, inner, rfl, rfl, hroom⟩

theorem outcome_named (reduce : Node → Eval Value) (name : String) (children : List Node)
    (position : Option Position) (table : Table Value) (s : State) :
    (structureNode reduce (.named name children position)).outcome table s =
      match (structureChildren reduce (.named name children position) children).outcome s with
      | (.ok v, s') => ((.ok (), table.insert name v), s')
      | (.error e, s') => ((.error e, table), s') := by
  rw [structureNode, Build.outcome_bind, Build.outcome_ofEval]
  rcases (structureChildren reduce (.named name children position) children).outcome s with
    ⟨_ | _, _⟩ <;> rfl

theorem named_ok {reduce : Node → Eval Value} {name : String} {children : List Node}
    {position : Option Position} {table table' : Table Value} {s s' : State}
    (h : (structureNode reduce (.named name children position)).outcome table s =
      ((.ok (), table'), s')) :
    ∃ v, (structureChildren reduce (.named name children position) children).outcome s =
      (.ok v, s') ∧ table' = table.insert name v := by
  rw [outcome_named] at h
  rcases hv : (structureChildren reduce (.named name children position) children).outcome s with
    ⟨e | v, s₁⟩
  · rw [hv] at h
    cases h
  · rw [hv] at h
    cases h
    exact ⟨v, rfl, rfl⟩

theorem structureEach_cons_ok {reduce : Node → Eval Value} {node : Node} {rest : List Node}
    {table table' : Table Value} {s s' : State}
    (h : (structureEach reduce (node :: rest)).outcome table s = ((.ok (), table'), s')) :
    ∃ table₁ s₁, (structureNode reduce node).outcome table s = ((.ok (), table₁), s₁) ∧
      (structureEach reduce rest).outcome table₁ s₁ = ((.ok (), table'), s') := by
  rw [structureEach, Build.outcome_bind] at h
  rcases hnode : (structureNode reduce node).outcome table s with ⟨⟨e | _, table₁⟩, s₁⟩
  · rw [hnode] at h
    cases h
  · rw [hnode] at h
    exact ⟨table₁, s₁, rfl, h⟩

end Reduction

structure State.Early (s : State) : Prop where
  document : s.document = []
  cache : s.cache = []
  scopes : s.scopes = []

namespace Coupling

def early (trees results : Node → Prop) (hereditary : Node.Hereditary trees)
    (sub : ∀ tree, results tree → trees tree) : Coupling where
  rel s t := s.Early ∧ t.Early ∧ t.resolving = s.resolving
  strict _ := False
  trees := trees
  results := results
  becomes _ v := v.Every results
  hereditary := hereditary
  trees_of_results := sub
  every_of_becomes := fun _ _ h => h
  closed := fun _ _ _ hv hvw => hvw.every (fun _ _ h => h) hv

variable {trees results : Node → Prop} {hereditary : Node.Hereditary trees}
  {sub : ∀ tree, results tree → trees tree} {setting : Setting}

theorem early_slot? {s : State} (hs : s.Early) {path : Path} {tree : Node} :
    s.document.slot? path ≠ some (.node tree) := by
  intro hslot
  have hpath := Document.ne_nil_of_slot?_node hslot
  rw [hs.document] at hslot
  cases path with
  | nil => exact hpath rfl
  | cons step rest => cases step <;> cases hslot

theorem sim_invoke_of_pure (hsetting : setting.Pure) (name : String) {values : List Value}
    (hvalues : ∀ v ∈ values, v.Every results) :
    (early trees results hereditary sub).Sim (fun v _ => v.Every results)
      (invoke setting name values) fun _ => invoke setting name values := by
  intro s t hst
  cases hf : setting.functions.get? name with
  | none =>
    rw [invoke_of_none hf]
    exact .pure hst (by simp)
  | some f =>
    have hpure := hsetting.functions hf
    have hs := outcome_invoke hf values s
    have ht := outcome_invoke hf values t
    rw [hpure.history] at hs ht
    refine .of_outcome hs ht ⟨⟨hst.1.document, hst.1.cache, hst.1.scopes⟩,
      ⟨hst.2.1.document, hst.2.1.cache, hst.2.1.scopes⟩, hst.2.2⟩ ⟨⟨rfl, rfl⟩, .refl _⟩ ⟨rfl, rfl⟩
      fun v hv => ?_
    exact hpure.conservative (ok_of_functionResult hv) _ hvalues

theorem early_concord (hsetting : setting.Pure) (hplain : ∀ tree, trees tree → tree.Plain)
    (hunresolved : ∀ segments, trees (.reference segments) → results (.reference segments)) :
    (early trees results hereditary sub).Concord setting setting where
  vars_eq := rfl
  lookups_eq := rfl
  limit := .inl rfl
  document_eq h := by rw [h.1.document, h.2.1.document]
  document h := by rw [h.1.document]; exact Value.staged_map_nil
  put h hslot := (early_slot? h.1 hslot).elim
  cache_eq h := by rw [h.1.cache, h.2.1.cache]
  resolving_eq h := h.2.2
  scopes_eq _ h := by rw [h.1.scopes, h.2.1.scopes]
  vars := hsetting.vars.mono fun _ h => h.elim
  cache h := by
    rw [h.1.cache]
    simp [LookupCache.toValue]
  scopes h hv := by
    rw [h.1.scopes] at hv
    cases hv
  unresolved := hunresolved _
  consult hdata _ _ := by
    have hread := (hplain _ hdata).self.2
    cases hread
  enter h _ _ := ⟨⟨h.1.document, h.1.cache, h.1.scopes⟩,
    ⟨h.2.1.document, h.2.1.cache, h.2.1.scopes⟩, by rw [h.2.2]⟩
  leave h h' := ⟨⟨h'.1.document, h'.1.cache, h'.1.scopes⟩,
    ⟨h'.2.1.document, h'.2.1.cache, h'.2.1.scopes⟩, h.2.2⟩
  becomes_of_every _ h := h
  invoke name _ := sim_invoke_of_pure hsetting name
  scope hcomprehension := by
    have hfor := (hplain _ hcomprehension).self.1
    cases hfor

theorem early_sim {trees' results' : Node → Prop} {hereditary' : Node.Hereditary trees'}
    {sub' : ∀ tree, results' tree → trees' tree} {α : Type} {post post' : α → Prop} {a : Eval α}
    {b : ℕ → Eval α} (h : (early trees results hereditary sub).Sim (fun x _ => post x) a b)
    (hpost : ∀ x, post x → post' x) :
    (early trees' results' hereditary' sub').Sim (fun x _ => post' x) a b := by
  intro s t hst r s' ha he
  obtain ⟨t', hb, hrel, hadv, hbal, hx⟩ := h s t hst r s' ha he
  refine ⟨t', hb, hrel, ⟨hadv.toBalanced, ?_⟩, hbal, fun x hr => hpost x (hx x hr)⟩
  rw [hst.1.document, hrel.1.document]
  exact .refl _

abbrev building : Coupling :=
  early Node.Plain (fun _ => False) Node.hereditary_plain fun _ h => h.elim

section
variable (hsetting : setting.Pure) (depth : ℕ)
include hsetting

theorem building_name (tree : Node) (htree : tree.Plain) :
    building.Sim (fun _ _ => True) (reduceNode setting depth tree)
      fun _ => reduceNode setting depth tree := by
  have hconcord : (early Node.Plain (fun tree => tree.Plain ∧ tree.isReference = true)
      Node.hereditary_plain fun _ h => h.1).Concord setting setting :=
    early_concord hsetting (fun _ h => h) fun _ h => ⟨h, rfl⟩
  exact early_sim (Sim.reduceNode (.refl _ depth) hconcord htree) fun _ _ => trivial

theorem building_free (tree : Node) (htree : tree.Plain) (hfree : tree.hasReferences = false) :
    building.Sim (fun v _ => v.Every fun _ => False) (reduceNode setting depth tree)
      fun _ => reduceNode setting depth tree := by
  have hereditary : Node.Hereditary fun tree => tree.Plain ∧ tree.hasReferences = false :=
    fun tree h part hpart => ⟨Node.hereditary_plain tree h.1 part hpart,
      Node.hereditary_not_hasReferences tree h.2 part hpart⟩
  have hconcord : (early _ (fun _ => False) hereditary fun _ h => h.elim).Concord
      setting setting := early_concord hsetting (fun _ h => h.1) fun _ h => by cases h.2
  exact early_sim (Sim.reduceNode (.refl _ depth) hconcord ⟨htree, hfree⟩) fun _ h => h

theorem building_early : building.Early (reduceNode setting depth)
    fun _ => reduceNode setting depth where
  key := building_name hsetting depth
  free := building_free hsetting depth

theorem building_structureEach {nodes : List Node} (hnodes : ∀ node ∈ nodes, node.Plain) :
    building.Fill (fun _ => True) (structureEach (reduceNode setting depth) nodes)
      fun _ => structureEach (reduceNode setting depth) nodes :=
  .structureEach (building_early hsetting depth) nodes hnodes

theorem building_structureChildren {whole : Node} {children : List Node} (hwhole : whole.Plain)
    (hchildren : ∀ child ∈ children, child.Plain) :
    building.Sim (fun _ _ => True) (structureChildren (reduceNode setting depth) whole children)
      fun _ => structureChildren (reduceNode setting depth) whole children :=
  (Sim.structureChildren (building_early hsetting depth) whole children hwhole hchildren).mono
    fun _ _ _ => trivial

end

end Coupling

/-- What has been entered at a key, and nowhere else; the same is entered into every table and in
every early state with the same entry there. -/
structure Entered (a : Build Unit) (key : String) (v : Value) (table table' : Table Value)
    (s s' : State) : Prop where
  early : s'.Early
  resolving : s'.resolving = s.resolving
  get? : ∀ k, table'.get? k = if key = k then some v else table.get? k
  again : ∀ (u : Table Value) (t : State), u.get? key = table.get? key →
    Coupling.building.rel s t → ∃ u' t', a.outcome u t = ((.ok (), u'), t') ∧
      Coupling.building.rel s' t' ∧ u'.get? key = some v

theorem Document.get?_put_insert (table : Table Value) (name : String) (rest : Path)
    (v w : Value) (key : String) :
    Table.get? (Document.put (table.insert name v) (.key name :: rest) w) key =
      if name = key then some (v.put rest w) else table.get? key := by
  have hput : Document.put (table.insert name v) (.key name :: rest) w =
      Table.modify (table.insert name v) name (Value.put · rest w) := rfl
  rw [hput]
  by_cases hkey : name = key
  · subst hkey
    rw [Table.get?_modify, Table.get?_insert, if_pos rfl, if_pos rfl, Option.map_some]
  · rw [Table.get?_modify_ne _ hkey, Table.get?_insert, if_neg hkey, if_neg hkey]

section
variable {setting : Setting} (hsetting : setting.Pure) (depth : ℕ)
include hsetting

theorem exists_entered_named {name : String} {children : List Node} {position : Option Position}
    (hplain : (Node.named name children position).Plain) {table table' : Table Value}
    {s s' : State} (hs : s.Early)
    (h : (structureNode (reduceNode setting depth) (.named name children position)).outcome table s
      = ((.ok (), table'), s')) :
    ∃ v, Entered (structureNode (reduceNode setting depth) (.named name children position)) name v
      table table' s s' := by
  have hchildren : ∀ child ∈ children, child.Plain := Node.hereditary_plain _ hplain
  have hsim := Coupling.building_structureChildren hsetting depth hplain hchildren
  obtain ⟨v, hv, rfl⟩ := named_ok h
  have hagain (t : State) (hst : Coupling.building.rel s t) := hsim s t hst _ _ hv
    fun e he => by cases he
  obtain ⟨_, -, hrel, hadv, -⟩ := hagain s ⟨hs, hs, rfl⟩
  refine ⟨v, hrel.1, hadv.resolving, fun k => Table.get?_insert table name k v,
    fun u t hu hst => ?_⟩
  obtain ⟨t', ht, hrel, -⟩ := hagain t hst
  refine ⟨u.insert name v, t', ?_, hrel, ?_⟩
  · rw [outcome_named, eventually_const.1 ht]
  · rw [Table.get?_insert, if_pos rfl]

theorem exists_entered_block {name : String} {names : List String} {children : List Node}
    {position : Option Position} (hplain : (Node.block (name :: names) children position).Plain)
    {table table' : Table Value} {s s' : State} (hs : s.Early)
    (h : (structureNode (reduceNode setting depth) (.block (name :: names) children
      position)).outcome table s = ((.ok (), table'), s')) :
    ∃ v, Entered (structureNode (reduceNode setting depth) (.block (name :: names) children
      position)) name v table table' s s' := by
  have hchildren : ∀ child ∈ children, child.Plain := Node.hereditary_plain _ hplain
  have hfill := Coupling.building_structureEach hsetting depth hchildren
  simp only [structureNode] at h ⊢
  obtain ⟨w, rest, inner, hbody, rfl, hroom⟩ := Build.block_ok h
  have hagain (t : State) (hst : Coupling.building.rel s t) := hfill s t [] hst (by simp) _ _ _
    hbody fun e he => by cases he
  obtain ⟨_, -, hrel, hadv, -⟩ := hagain s ⟨hs, hs, rfl⟩
  refine ⟨w.put rest (.map inner), hrel.1, hadv.resolving,
    Document.get?_put_insert table name rest w (.map inner), fun u t hu hst => ?_⟩
  obtain ⟨t', ht, hrel, -⟩ := hagain t hst
  refine ⟨Document.put (u.insert name w) (.key name :: rest) (.map inner), t', ?_, hrel, ?_⟩
  · rw [Build.outcome_block, hroom u hu, eventually_const.1 ht]
  · rw [Document.get?_put_insert, if_pos rfl]

theorem exists_entered {node : Node} {key : String} (hplain : node.Plain)
    (hroot : node.rootKey? = some key) {table table' : Table Value} {s s' : State} (hs : s.Early)
    (h : (structureNode (reduceNode setting depth) node).outcome table s =
      ((.ok (), table'), s')) :
    ∃ v, Entered (structureNode (reduceNode setting depth) node) key v table table' s s' := by
  cases node <;> simp only [Node.rootKey?, reduceCtorEq] at hroot
  case named name children position =>
    cases hroot
    exact exists_entered_named hsetting depth hplain hs h
  case block names children position =>
    cases names with
    | nil => cases hroot
    | cons name names =>
      cases hroot
      exact exists_entered_block hsetting depth hplain hs h

/-- The entry at a key is made by the nodes with that root key alone. -/
theorem structureEach_entry (key : String) {nodes : List Node}
    (hnodes : ∀ node ∈ nodes, node.Plain ∧ ∃ key, node.rootKey? = some key)
    {table table' u : Table Value} {s s' t : State} (hst : Coupling.building.rel s t)
    (hu : u.get? key = table.get? key)
    (h : (structureEach (reduceNode setting depth) nodes).outcome table s =
      ((.ok (), table'), s')) :
    ∃ u' t', (structureEach (reduceNode setting depth)
        (nodes.filter (·.rootKey? = some key))).outcome u t = ((.ok (), u'), t') ∧
      u'.get? key = table'.get? key := by
  induction nodes generalizing table u s t with
  | nil =>
    cases h
    exact ⟨u, t, rfl, hu⟩
  | cons node rest ih =>
    rw [List.forall_mem_cons] at hnodes
    obtain ⟨table₁, s₁, hnode, hrest⟩ := structureEach_cons_ok h
    obtain ⟨root, hroot⟩ := hnodes.1.2
    obtain ⟨v, hentered⟩ := exists_entered hsetting depth hnodes.1.1 hroot hst.1 hnode
    by_cases hkey : root = key
    · subst hkey
      obtain ⟨u₁, t₁, ht, hrel, hv⟩ := hentered.again u t hu hst
      have hu₁ : u₁.get? root = table₁.get? root := by rw [hv, hentered.get?, if_pos rfl]
      obtain ⟨u', t', hfiltered, hget⟩ := ih hnodes.2 hrel hu₁ hrest
      refine ⟨u', t', ?_, hget⟩
      rw [List.filter_cons_of_pos (by simpa using hroot), structureEach, Build.outcome_bind, ht]
      exact hfiltered
    · have hrel : Coupling.building.rel s₁ t :=
        ⟨hentered.early, hst.2.1, hst.2.2.trans hentered.resolving.symm⟩
      have hu₁ : u.get? key = table₁.get? key := by rw [hentered.get?, if_neg hkey, hu]
      rw [List.filter_cons_of_neg (by simp [hroot, hkey])]
      exact ih hnodes.2 hrel hu₁ hrest

end

/-- An attribute or a block with static names, as documents are made of them: `locals` and
`variable` are blocks, and a variable has a label. -/
def Node.isTopLevel : Node → Bool
  | .named name _ _ => name != "locals" && name != "variable"
  | .block ["variable"] _ _ => false
  | .block (_ :: _) _ _ => true
  | _ => false

theorem Node.exists_rootKey? {node : Node} (h : node.isTopLevel = true) :
    ∃ key, node.rootKey? = some key := by
  cases node <;> simp only [Node.isTopLevel, reduceCtorEq] at h
  case named name _ _ => exact ⟨name, rfl⟩
  case block names _ _ =>
    cases names with
    | nil => cases h
    | cons name _ => exact ⟨name, rfl⟩

namespace Reduction

theorem shaped_insert {table : Table Value} (htable : Document.Shaped table) {name : String}
    (hlocals : name ≠ "locals") (hvariable : name ≠ "variable") (w : Value) :
    Document.Shaped (table.insert name w) := by
  constructor <;> intro v hv
  · rw [Table.get?_insert, if_neg hlocals] at hv
    exact htable.locals v hv
  · rw [Table.get?_insert, if_neg hvariable] at hv
    exact htable.declared v hv

theorem shaped_put_block {table : Table Value} (htable : Document.Shaped table) {name : String}
    {names : List String} (hlabel : name = "variable" → names ≠ []) {w : Value} {rest : Path}
    (hplace : place table (name :: names) = .ok (table.insert name w, .key name :: rest))
    (inner : Table Value) :
    Document.Shaped (Document.put (table.insert name w) (.key name :: rest) (.map inner)) := by
  have hw : (table.insert name w).get? name = some w := by rw [Table.get?_insert, if_pos rfl]
  constructor <;> intro v hv <;> rw [Document.get?_put_insert] at hv <;> split at hv
  · rename_i hname
    subst hname
    cases hv
    exact (place_isBlocks hplace htable.locals hw).put rest inner
  · exact htable.locals v hv
  · rename_i hname
    cases names with
    | nil => exact absurd rfl (hlabel hname)
    | cons label names =>
      subst hname
      cases hv
      obtain ⟨entries, rest', hpath, hentry, hentries⟩ := place_declared hplace htable.declared
      cases hpath
      rw [hw] at hentry
      cases hentry
      refine ⟨_, rfl, fun e he => ?_⟩
      rcases Table.mem_modify he with he | ⟨u, hu, rfl⟩
      · exact hentries e he
      · exact (hentries _ hu).put rest' inner
  · exact htable.declared v hv

theorem shaped_structureNode {reduce : Node → Eval Value} {node : Node}
    (hnode : node.isTopLevel = true) {table table' : Table Value} {s s' : State}
    (htable : Document.Shaped table)
    (h : (structureNode reduce node).outcome table s = ((.ok (), table'), s')) :
    Document.Shaped table' := by
  cases node <;> simp only [Node.isTopLevel, reduceCtorEq] at hnode
  case named name children position =>
    simp only [Bool.and_eq_true, bne_iff_ne] at hnode
    obtain ⟨w, -, rfl⟩ := named_ok h
    exact shaped_insert htable hnode.1 hnode.2 w
  case block names children position =>
    cases names with
    | nil => cases hnode
    | cons name names =>
      obtain ⟨w, rest, inner, -, rfl, hroom⟩ := Build.block_ok h
      refine shaped_put_block htable (fun hname hnames => ?_) (hroom table rfl) inner
      rw [hname, hnames] at hnode
      cases hnode

theorem nodup_structureNode {reduce : Node → Eval Value} {node : Node} {key : String}
    (hroot : node.rootKey? = some key) {table table' : Table Value} {s s' : State}
    (htable : (Table.keys table).Nodup)
    (h : (structureNode reduce node).outcome table s = ((.ok (), table'), s')) :
    (Table.keys table').Nodup := by
  cases node <;> simp only [Node.rootKey?, reduceCtorEq] at hroot
  case named name children position =>
    obtain ⟨v, -, rfl⟩ := named_ok h
    exact Table.nodup_keys_insert htable name v
  case block names children position =>
    cases names with
    | nil => cases hroot
    | cons name names =>
      obtain ⟨w, rest, inner, -, rfl, -⟩ := Build.block_ok h
      have hput : Document.put (table.insert name w) (.key name :: rest) (.map inner) =
          Table.modify (table.insert name w) name (Value.put · rest (.map inner)) := rfl
      rw [hput, Table.keys_modify]
      exact Table.nodup_keys_insert htable name w

theorem structureEach_keeps {p : Table Value → Prop} {reduce : Node → Eval Value}
    {nodes : List Node} (hnodes : ∀ node ∈ nodes, ∀ table s table' s', p table →
      (structureNode reduce node).outcome table s = ((.ok (), table'), s') → p table')
    {table table' : Table Value} {s s' : State} (htable : p table)
    (h : (structureEach reduce nodes).outcome table s = ((.ok (), table'), s')) : p table' := by
  induction nodes generalizing table s with
  | nil =>
    cases h
    exact htable
  | cons node rest ih =>
    rw [List.forall_mem_cons] at hnodes
    obtain ⟨table₁, s₁, hnode, hrest⟩ := structureEach_cons_ok h
    exact ih hnodes.2 (hnodes.1 table s table₁ s₁ htable hnode) hrest

end Reduction
end HclEval
