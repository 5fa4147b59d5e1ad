import HclEval.Proofs.Aliases.Document
import HclEval.Proofs.Resolution

/-!
Aliases of local names are followed to their ends. The second pass fails on them only where they
come back to a name, and then finds a cycle before it reaches its limit; all other names take the
value that their aliases lead to.
-/
namespace HclEval

open Reduction

theorem pathText_local (name : String) :
    Node.pathText [.segment "local", .segment name] = "local." ++ name := by
  have htext : Node.pathText [.segment "local", .segment name] =
      "local" ++ ("." ++ name ++ "") := rfl
  rw [htext, String.append_empty, ← String.append_assoc]
  rfl

/-- A state of the second pass: every name has its first value or the one it leads to. -/
structure Standing (blocks : List LocalsBlock) (resolving : List String) (f : String → Value)
    (s : State) : Prop where
  document : s.document = documentOf f blocks
  scopes : s.scopes = []
  resolving : s.resolving = resolving.map ("local." ++ ·)
  values : ∀ d ∈ allDeclarations blocks,
    (∃ target, d.binding = .reference target ∧ f d.name = .node d.node) ∨
      Leads (allDeclarations blocks) d.name (f d.name)

def Onward (declarations : List Declaration) (f f' : String → Value) : Prop :=
  ∀ name, Leads declarations name (f name) → Leads declarations name (f' name)

/-- How an evaluation ends: on a cycle, or in another such state with a result as asked. -/
inductive Ended {α : Type} (blocks : List LocalsBlock) (resolving : List String)
    (f : String → Value) (post : α → (String → Value) → Prop) : Except Stop α × State → Prop
  | cycle {name : String} (s : State) :
    Relation.TransGen (Alias (allDeclarations blocks)) name name →
      Ended blocks resolving f post (.error (.error (.cyclicReference ("local." ++ name))), s)
  | ok {x : α} {f' : String → Value} {s : State} :
    post x f' → Standing blocks resolving f' s → Onward (allDeclarations blocks) f f' →
      Ended blocks resolving f post (.ok x, s)

section
variable {blocks : List LocalsBlock} {resolving : List String} {f : String → Value} {s : State}
  {α β : Type}

theorem Ended.bind {post : α → (String → Value) → Prop} {post' : β → (String → Value) → Prop}
    {a : Eval α} {g : α → Eval β} (ha : Ended blocks resolving f post (a.outcome s))
    (hg : ∀ x f' s', post x f' → Standing blocks resolving f' s' →
      Ended blocks resolving f' post' ((g x).outcome s')) :
    Ended blocks resolving f post' ((a >>= g).outcome s) := by
  generalize hr : a.outcome s = r at ha
  cases ha with
  | cycle s' hcycle =>
    rw [Eval.outcome_bind_error hr]
    exact .cycle s' hcycle
  | @ok x f' s' hx hs' honward =>
    rw [Eval.outcome_bind_ok hr]
    have hrest := hg x f' s' hx hs'
    generalize (g x).outcome s' = r at hrest
    cases hrest with
    | cycle s'' hcycle => exact .cycle s'' hcycle
    | ok hy hs'' honward' => exact .ok hy hs'' fun name h => honward' name (honward name h)

theorem Ended.pure {post : α → (String → Value) → Prop} {x : α} (hx : post x f)
    (hs : Standing blocks resolving f s) :
    Ended blocks resolving f post ((pure x : Eval α).outcome s) :=
  .ok hx hs fun _ h => h

theorem Ended.mono {post post' : α → (String → Value) → Prop} {r : Except Stop α × State}
    (h : Ended blocks resolving f post r) (hpost : ∀ x f', post x f' → post' x f') :
    Ended blocks resolving f post' r := by
  cases h with
  | cycle s hcycle => exact .cycle s hcycle
  | ok hx hs honward => exact .ok (hpost _ _ hx) hs honward

theorem Ended.forM {xs : List β} {g : β → Eval Unit} {p : β → (String → Value) → Prop}
    (hkept : ∀ x f f', Onward (allDeclarations blocks) f f' → p x f → p x f')
    (hg : ∀ x ∈ xs, ∀ f s, Standing blocks resolving f s →
      Ended blocks resolving f (fun _ f' => p x f') ((g x).outcome s))
    (hs : Standing blocks resolving f s) :
    Ended blocks resolving f (fun _ f' => ∀ x ∈ xs, p x f') ((xs.forM g).outcome s) := by
  induction xs generalizing f s with
  | nil => exact .ok (by simp) hs fun _ h => h
  | cons x rest ih =>
    rw [List.forall_mem_cons] at hg
    refine (hg.1 f s hs).bind fun _ f' s' hx hs' => ?_
    have hrest := ih hg.2 hs'
    change Ended blocks resolving f' _ ((rest.forM g).outcome s')
    generalize (rest.forM g).outcome s' = r at hrest ⊢
    cases hrest with
    | cycle s'' hcycle => exact .cycle s'' hcycle
    | ok hdone hs'' honward =>
      exact .ok (List.forall_mem_cons.2 ⟨hkept x _ _ honward hx, hdone⟩) hs'' honward

end

section
variable {setting : Setting} {blocks : List LocalsBlock}
  (hdistinct : ((allDeclarations blocks).map Declaration.name).Nodup)

theorem exists_declaredPath {name : String} (h : Declared (allDeclarations blocks) name) :
    ∃ (i : ℕ) (block : LocalsBlock) (d : Declaration),
      blocks[i]? = some block ∧ d ∈ block.declarations ∧ d.name = name := by
  obtain ⟨d, hd, hname⟩ := h
  obtain ⟨block, hblock, hd⟩ := List.mem_flatMap.1 hd
  obtain ⟨i, hi⟩ := List.mem_iff_getElem?.1 hblock
  exact ⟨i, block, d, hi, hd, hname⟩

def Settles (setting : Setting) (blocks : List LocalsBlock) (room : ℕ) : Prop :=
  ∀ {depth nesting i : ℕ} {block : LocalsBlock} {d : Declaration} {root : String}
    {resolving : List String} {f : String → Value} {s : State},
    (allDeclarations blocks).length ≤ resolving.length + room → 2 * room + 2 ≤ depth →
    0 < nesting → blocks[i]? = some block → d ∈ block.declarations →
    InProgress (allDeclarations blocks) root d.name resolving →
    Standing blocks resolving f s →
      Ended blocks resolving f (fun _ f' => Leads (allDeclarations blocks) d.name (f' d.name))
        ((settle (reduceNode setting depth) nesting (declaredPath blocks i d.name)).outcome s)

include hdistinct

theorem ended_resolveReference (hlimit : (allDeclarations blocks).length ≤ setting.maxDepth)
    {room : ℕ} (hsettles : ∀ less, less + 1 = room → Settles setting blocks less) {depth : ℕ}
    {root name target : String} {resolving : List String} {f : String → Value} {s : State}
    (hroom : (allDeclarations blocks).length ≤ resolving.length + room) (hdepth : 2 * room ≤ depth)
    (hprogress : InProgress (allDeclarations blocks) root name resolving)
    (htarget : Relation.TransGen (Alias (allDeclarations blocks)) name target)
    (hs : Standing blocks resolving f s) :
    Ended blocks resolving f (fun v _ => Leads (allDeclarations blocks) target v)
      ((resolveReference (reduceNode setting depth) setting depth
        [.segment "local", .segment target]).outcome s) := by
  have hmem : Node.pathText [.segment "local", .segment target] ∈ s.resolving ↔
      target ∈ resolving := by
    rw [hs.resolving, pathText_local]
    simp [String.append_right_inj]
  -- a target in progress closes a cycle of aliases, and is what the reference fails with
  by_cases hcycle : target ∈ resolving
  · rw [outcome_resolveReference_of_mem _ _ _ (hmem.2 hcycle), pathText_local]
    exact .cycle s (hprogress.cycle htarget hcycle)
  have hlength : resolving.length < (allDeclarations blocks).length :=
    hprogress.length_lt hdistinct htarget hcycle
  have hplenty : s.resolving.length < setting.maxDepth := by
    rw [hs.resolving, List.length_map]
    omega
  rw [outcome_resolveReference _ _ _ (fun h => hcycle (hmem.1 h)) hplenty]
  set inner : State :=
    { s with resolving := Node.pathText [.segment "local", .segment target] :: s.resolving }
    with hinner
  have hsegments : (resolveSegments (reduceNode setting depth) setting depth
      [.segment "local", .segment target]).outcome inner =
        (follow (reduceNode setting depth) setting depth
          ((inner.document.localPath? target).map .slot) []).outcome inner := by
    rw [outcome_resolveSegments_name]
    have horigin : origin? inner "local" = some .locals := by
      unfold origin?
      rw [show inner.scopes = [] from hs.scopes]
      rfl
    rw [horigin]
    rfl
  have hdocument : inner.document = documentOf f blocks := hs.document
  by_cases hdeclared : Declared (allDeclarations blocks) target
  · obtain ⟨i, block, d, hblock, hd, rfl⟩ := exists_declaredPath hdeclared
    have hstanding : Standing blocks (d.name :: resolving) f inner :=
      ⟨hs.document, hs.scopes, by rw [hinner, List.map_cons, ← hs.resolving, pathText_local],
        hs.values⟩
    have hsettled := hsettles (room - 1) (by omega) (by rw [List.length_cons]; omega)
      (show 2 * (room - 1) + 2 ≤ depth by omega) (show 0 < depth by omega) hblock hd
      (hprogress.push htarget hdeclared hcycle) hstanding
    rw [hsegments, hdocument, localPath?_of_declared hdistinct f hblock ⟨d, hd, rfl⟩,
      Option.map_some, follow, finish]
    generalize hr : (settle (reduceNode setting depth) depth
      (declaredPath blocks i d.name)).outcome inner = r at hsettled
    cases hsettled with
    | cycle s' hcycle =>
      rw [Eval.outcome_bind_error hr]
      exact .cycle _ hcycle
    | @ok _ f' s' hleads hs' honward =>
      rw [Eval.outcome_bind_ok hr]
      have hslot : s'.document.slot? (declaredPath blocks i d.name) = some (f' d.name) := by
        rw [hs'.document, slot?_declaredPath f' hblock hd]
      rw [outcome_slot? hslot]
      refine .ok hleads ⟨hs'.document, hs'.scopes, ?_, hs'.values⟩ honward
      rw [hs'.resolving, List.map_cons, List.tail_cons]
  · rw [hsegments, hdocument, localPath?_of_undeclared f hdeclared, Option.map_none,
      outcome_follow_none]
    exact .ok (.undeclared hdeclared) hs fun _ h => h

theorem ended_forceSlot {setting : Setting} {depth nesting i : ℕ} {block : LocalsBlock}
    {d : Declaration} {tree : Node} {resolving : List String} {f : String → Value} {s : State}
    (hblock : blocks[i]? = some block) (hd : d ∈ block.declarations)
    (hs : Standing blocks resolving f s) (htree : f d.name = .node tree)
    (hreduce : Ended blocks resolving f (fun v _ => Leads (allDeclarations blocks) d.name v)
      ((reduceNode setting depth tree).outcome s)) :
    Ended blocks resolving f (fun _ f' => Leads (allDeclarations blocks) d.name (f' d.name))
      ((settle (reduceNode setting depth) (nesting + 1) (declaredPath blocks i d.name)).outcome
        s) := by
  have hslot : s.document.slot? (declaredPath blocks i d.name) = some (.node tree) := by
    rw [hs.document, slot?_declaredPath f hblock hd, htree]
  rw [settle, Eval.outcome_bind_ok (outcome_slot? hslot)]
  change Ended blocks resolving f _ ((forceSlot (reduceNode setting depth) _).outcome s)
  rw [outcome_forceSlot hslot]
  generalize (reduceNode setting depth tree).outcome s = r at hreduce
  cases hreduce with
  | cycle s' hcycle => exact .cycle s' hcycle
  | @ok v f' s' hleads hs' honward =>
    have hupdate : Function.update f' d.name v d.name = v := Function.update_self ..
    have hname (name : String) (h : Leads (allDeclarations blocks) name (f' name)) :
        Leads (allDeclarations blocks) name (Function.update f' d.name v name) := by
      by_cases heq : name = d.name
      · rw [heq, hupdate]
        exact hleads
      · rwa [Function.update_of_ne heq]
    have hstanding : Standing blocks resolving (Function.update f' d.name v)
        { s' with document := s'.document.put (declaredPath blocks i d.name) v } := by
      refine ⟨?_, hs'.scopes, hs'.resolving, fun d' hd' => ?_⟩
      · rw [hs'.document]
        exact put_declaredPath hdistinct f' hblock hd v
      · by_cases heq : d'.name = d.name
        · refine .inr ?_
          rw [heq, hupdate]
          exact hleads
        · rw [Function.update_of_ne heq]
          exact hs'.values d' hd'
    exact .ok (by rwa [hupdate]) hstanding fun name h => hname name (honward name h)

theorem settles_of_less (hlimit : (allDeclarations blocks).length ≤ setting.maxDepth) {room : ℕ}
    (hsettles : ∀ less, less + 1 = room → Settles setting blocks less) :
    Settles setting blocks room := by
  intro depth nesting i block d root resolving f s hroom hdepth hnesting hblock hd hprogress hs
  obtain ⟨nesting, rfl⟩ := Nat.exists_eq_add_of_le' hnesting
  obtain ⟨level, rfl⟩ := Nat.exists_eq_add_of_le' (show 2 ≤ depth by omega)
  have hmem : d ∈ allDeclarations blocks :=
    List.mem_flatMap.2 ⟨block, List.mem_of_getElem? hblock, hd⟩
  have hfollow {target : String} (deep : ℕ) (hdeep : 2 * room ≤ deep)
      (htarget : Relation.TransGen (Alias (allDeclarations blocks)) d.name target) :
      Ended blocks resolving f (fun v _ => Leads (allDeclarations blocks) d.name v)
        ((reduceNode setting (deep + 1) (localReference target)).outcome s) :=
    (ended_resolveReference hdistinct hlimit hsettles hroom hdeep hprogress htarget hs).mono
      fun v _ hv => hv.of_reaches htarget.to_reflTransGen
  have hcome (hleads : Leads (allDeclarations blocks) d.name (f d.name)) :
      Ended blocks resolving f (fun _ f' => Leads (allDeclarations blocks) d.name (f' d.name))
        ((settle (reduceNode setting (level + 2)) (nesting + 1)
          (declaredPath blocks i d.name)).outcome s) := by
    rcases hleads.leaf_or_unresolved with ⟨hchildren, hnode⟩ | ⟨last, hv, hlast, hreach⟩
    · have hslot : s.document.slot? (declaredPath blocks i d.name) = some (f d.name) := by
        rw [hs.document, slot?_declaredPath f hblock hd]
      rw [outcome_settle_succ _ nesting hslot hnode, hchildren]
      exact .pure hleads hs
    · have htarget : Relation.TransGen (Alias (allDeclarations blocks)) d.name last := by
        rcases Relation.reflTransGen_iff_eq_or_transGen.1 hreach with heq | htrans
        · exact absurd ⟨d, hmem, heq.symm⟩ hlast
        · exact htrans
      exact ended_forceSlot hdistinct hblock hd hs hv (hfollow (level + 1) (by omega) htarget)
  -- the slot holds what the first pass stored, or what an earlier evaluation left there
  rcases hs.values d hmem with ⟨target, hbinding, hfirst⟩ | hleads
  · refine ended_forceSlot hdistinct hblock hd hs hfirst ?_
    have hnode : d.node = .named d.name [localReference target] d.position := by
      rw [Declaration.node, hbinding, Binding.node]
    have hreduce : (reduceNode setting (level + 2) d.node).outcome s =
        (reduceNode setting (level + 1) (localReference target)).outcome s := by
      rw [hnode]
      exact outcome_evaluate_reference _ _ s
    rw [hreduce]
    exact hfollow level (by omega) (.single ⟨d, hmem, rfl, hbinding⟩)
  · exact hcome hleads

theorem settles (hlimit : (allDeclarations blocks).length ≤ setting.maxDepth) (room : ℕ) :
    Settles setting blocks room := by
  -- every reference in progress takes one of the room, so its target settles in what is left
  induction room with
  | zero =>
    exact settles_of_less hdistinct hlimit fun less hless => absurd hless (Nat.succ_ne_zero less)
  | succ room ih =>
    exact settles_of_less hdistinct hlimit fun less hless => by
      cases hless
      exact ih

theorem ended_settle_block (hlimit : (allDeclarations blocks).length ≤ setting.maxDepth)
    {depth nesting i : ℕ} (hdepth : 2 * (allDeclarations blocks).length + 2 ≤ depth)
    (hnesting : 0 < nesting) {block : LocalsBlock} (hblock : blocks[i]? = some block) {path : Path}
    (hpath : ∀ name, path ++ [.key name] = declaredPath blocks i name) {f : String → Value}
    {s : State} (hslot : s.document.slot? path = some (.map (block.entries f)))
    (hs : Standing blocks [] f s) :
    Ended blocks [] f (fun _ f' => ∀ d ∈ block.declarations,
        Leads (allDeclarations blocks) d.name (f' d.name))
      ((settle (reduceNode setting depth) (nesting + 1) path).outcome s) := by
  rw [outcome_settle_succ _ nesting hslot (by simp)]
  have hsteps : childSteps (.map (block.entries f)) =
      block.declarations.map fun d => Step.key d.name := by
    simp [childSteps, LocalsBlock.entries]
  rw [hsteps]
  refine (Ended.forM (p := fun (step : Step) f' => ∀ d ∈ block.declarations,
    step = .key d.name → Leads (allDeclarations blocks) d.name (f' d.name))
    (fun step f f' honward h d hd heq => honward _ (h d hd heq)) ?_ hs).mono
      fun _ f' h d hd => h _ (List.mem_map_of_mem hd) d hd rfl
  intro step hstep f s hs
  obtain ⟨d, hd, rfl⟩ := List.mem_map.1 hstep
  have hmem : d ∈ allDeclarations blocks :=
    List.mem_flatMap.2 ⟨block, List.mem_of_getElem? hblock, hd⟩
  have hnone : InProgress (allDeclarations blocks) d.name d.name [] :=
    ⟨List.nodup_nil, by simp, ⟨d, hmem, rfl⟩, .refl, by simp⟩
  have hsettled := settles hdistinct hlimit (allDeclarations blocks).length (by simp) hdepth
    hnesting hblock hd hnone hs
  rw [hpath]
  refine hsettled.mono fun _ f' hleads d' _ heq => ?_
  have hname : d.name = d'.name := by simpa using heq
  rwa [← hname]

theorem ended_settle_several (hlimit : (allDeclarations blocks).length ≤ setting.maxDepth)
    {depth : ℕ} (nesting : ℕ) (hdepth : 2 * (allDeclarations blocks).length + 2 ≤ depth)
    (hseveral : 2 ≤ blocks.length) {f : String → Value} {s : State} (hs : Standing blocks [] f s) :
    Ended blocks [] f (fun _ f' => ∀ d ∈ allDeclarations blocks,
        Leads (allDeclarations blocks) d.name (f' d.name))
      ((settle (reduceNode setting depth) (nesting + 3) [.key "locals"]).outcome s) := by
  have hslot : s.document.slot? [.key "locals"] =
      some (.list (blocks.map fun block => .map (block.entries f))) := by
    rw [hs.document, documentOf_several f hseveral]
    rfl
  have hpath (i : ℕ) (name : String) :
      [.key "locals", .index i] ++ [.key name] = declaredPath blocks i name := by
    rw [declaredPath, if_neg (by omega)]
    rfl
  rw [outcome_settle_succ _ (nesting + 2) hslot (by simp)]
  refine (Ended.forM (p := fun (step : Step) f' => ∀ i block, step = .index i →
    blocks[i]? = some block → ∀ d ∈ block.declarations,
      Leads (allDeclarations blocks) d.name (f' d.name))
    (fun step f f' honward h i block heq hblock d hd => honward _ (h i block heq hblock d hd))
    ?_ hs).mono ?_
  · intro step hstep f s hs
    obtain ⟨i, hi, rfl⟩ := List.mem_map.1 hstep
    rw [List.mem_range, List.length_map] at hi
    have hblock : blocks[i]? = some blocks[i] := List.getElem?_eq_getElem hi
    have hslot : s.document.slot? [.key "locals", .index i] =
        some (.map (blocks[i].entries f)) := by
      rw [hs.document, documentOf_several f hseveral]
      simp [Document.slot?, Value.at?, Value.child?, Table.get?, hi]
    refine (ended_settle_block hdistinct hlimit hdepth (show 0 < nesting + 1 by omega)
      hblock (hpath i) hslot hs).mono fun _ f' hdone j block heq hblock' => ?_
    cases heq
    rw [hblock] at hblock'
    cases hblock'
    exact hdone
  · intro _ f' hdone d hd
    obtain ⟨block, hblock, hd⟩ := List.mem_flatMap.1 hd
    obtain ⟨i, hi⟩ := List.mem_iff_getElem?.1 hblock
    have hlength := (List.getElem?_eq_some_iff.1 hi).1
    refine hdone (.index i) ?_ i block rfl hi d hd
    exact List.mem_map_of_mem (List.mem_range.2 (by rwa [List.length_map]))

theorem ended_resolveDocument (hlimit : (allDeclarations blocks).length ≤ setting.maxDepth)
    {depth : ℕ} (hdepth : 2 * (allDeclarations blocks).length + 4 ≤ depth) {f : String → Value}
    {s : State} (hs : Standing blocks [] f s) :
    Ended blocks [] f (fun _ f' => ∀ d ∈ allDeclarations blocks,
        Leads (allDeclarations blocks) d.name (f' d.name))
      ((resolveDocument setting depth).outcome s) := by
  have hpass : (resolveDocument setting depth).outcome s =
      ((resolutionOrder (documentOf f blocks)).forM fun key =>
        settle (reduceNode setting depth) depth [.key key]).outcome s := by
    rw [← hs.document]
    rfl
  obtain ⟨nesting, rfl⟩ := Nat.exists_eq_add_of_le' (show 3 ≤ depth by omega)
  rw [hpass]
  -- one block is a map of the document, several are a list of maps
  match blocks, hdistinct, hlimit, hdepth, hs with
  | [], _, _, _, hs => exact .ok (by simp [allDeclarations]) hs fun _ h => h
  | [block], hdistinct, hlimit, hdepth, hs =>
    have horder : resolutionOrder (documentOf f [block]) = ["locals"] := rfl
    have hslot : s.document.slot? [.key "locals"] = some (.map (block.entries f)) := by
      rw [hs.document]
      rfl
    have hdepth' : 2 * (allDeclarations [block]).length + 2 ≤ nesting + 3 := by omega
    have hsettled := ended_settle_block hdistinct hlimit hdepth' (show 0 < nesting + 2 by omega)
      (show [block][0]? = some block from rfl) (fun _ => rfl) hslot hs
    rw [horder]
    refine Ended.bind hsettled fun _ f' s' hdone hs' => .pure ?_ hs'
    simpa [allDeclarations] using hdone
  | first :: second :: rest, hdistinct, hlimit, hdepth, hs =>
    have horder : resolutionOrder (documentOf f (first :: second :: rest)) = ["locals"] := rfl
    have hdepth' : 2 * (allDeclarations (first :: second :: rest)).length + 2 ≤ nesting + 3 := by
      omega
    have hsettled := ended_settle_several hdistinct hlimit nesting hdepth' (by simp) hs
    rw [horder]
    exact Ended.bind hsettled fun _ f' s' hdone hs' => .pure hdone hs'

end

/-- Attributes of `locals` blocks that are literals or aliases of each other, under distinct names
and no more than the limit of references. They fail to evaluate if and only if the aliases of some
of them have no end, and then with a cycle; otherwise each holds what its aliases lead to. -/
theorem alias_cycles_exact (setting : Setting) (calls : List Call) {blocks : List LocalsBlock}
    (hdistinct : ((allDeclarations blocks).map Declaration.name).Nodup)
    (hwritten : ∀ d ∈ allDeclarations blocks, d.binding.WellFormed)
    (hlimit : (allDeclarations blocks).length ≤ setting.maxDepth) :
    ((∃ stop, (run setting calls (blocks.map LocalsBlock.node)).1 = .error stop) ↔
        ∃ d ∈ allDeclarations blocks, Endless (allDeclarations blocks) d.name) ∧
      (∀ stop, (run setting calls (blocks.map LocalsBlock.node)).1 = .error stop →
        ∃ d ∈ allDeclarations blocks, Endless (allDeclarations blocks) d.name ∧
          stop = .error (.cyclicReference ("local." ++ d.name))) ∧
      ((run setting calls (blocks.map LocalsBlock.node)).1 = .ok () →
        ∃ f : String → Value,
          (run setting calls (blocks.map LocalsBlock.node)).2.document = documentOf f blocks ∧
            ∀ d ∈ allDeclarations blocks, Leads (allDeclarations blocks) d.name (f d.name)) := by
  set depth := depthFor setting (blocks.map LocalsBlock.node) with hdepthFor
  set f := firstValues (allDeclarations blocks) with hf
  have hfirst (d : Declaration) (hd : d ∈ allDeclarations blocks) : f d.name = d.first :=
    firstValues_eq hdistinct hd
  have hbuild : (structureDocument setting depth (blocks.map LocalsBlock.node)).outcome { calls } =
      (.ok (), { calls, document := documentOf f blocks }) :=
    outcome_structureDocument
      (outcome_structureEach_blocks _ { calls } [] hdistinct hwritten hfirst)
  have hstart : Standing blocks [] f { calls, document := documentOf f blocks } := by
    refine ⟨rfl, rfl, rfl, fun d hd => ?_⟩
    rw [hfirst d hd, Declaration.first]
    cases hbinding : d.binding with
    | reference target => exact .inl ⟨target, rfl, rfl⟩
    | literal kind raw =>
      obtain ⟨v, hv⟩ := exists_literalValue (hbinding ▸ hwritten d hd)
      simp only [hv]
      exact .inr (.literal hd hbinding hv)
  have hdepth : 2 * (allDeclarations blocks).length + 4 ≤ depth := by
    have hlarge : (setting.maxDepth + 2) * 1024 ≤ depth := Nat.mul_le_mul_left _ (by omega)
    omega
  have hrun : run setting calls (blocks.map LocalsBlock.node) =
      (resolveDocument setting depth).outcome { calls, document := documentOf f blocks } := by
    change (reduceDocument setting depth _).outcome { calls } = _
    rw [reduceDocument, Eval.outcome_bind_ok hbuild]
  have hended := ended_resolveDocument hdistinct hlimit hdepth hstart
  rw [hrun]
  generalize (resolveDocument setting depth).outcome _ = r at hended ⊢
  cases hended with
  | @cycle name s hcycle =>
    obtain ⟨next, ⟨d, hd, rfl, _⟩, _⟩ := Relation.TransGen.head'_iff.1 hcycle
    have hendless := endless_of_cycle hcycle
    refine ⟨⟨fun _ => ⟨d, hd, hendless⟩, fun _ => ⟨_, rfl⟩⟩, fun stop hstop => ?_,
      fun h => by cases h⟩
    cases hstop
    exact ⟨d, hd, hendless, rfl⟩
  | @ok _ f' s hleads hs _ =>
    refine ⟨⟨?_, ?_⟩, ?_, fun _ => ⟨f', hs.document, hleads⟩⟩
    · rintro ⟨stop, hstop⟩
      cases hstop
    · rintro ⟨d, hd, hendless⟩
      exact absurd hendless ((hleads d hd).not_endless hdistinct)
    · intro stop hstop
      cases hstop

def tailedRing : List LocalsBlock :=
  [⟨[⟨"tail", .reference "ring", none⟩, ⟨"end", .literal .number "1", none⟩], none⟩,
    ⟨[⟨"ring", .reference "ring", none⟩], none⟩]

theorem alias_cycles_exact_tailedRing :
    ∃ d ∈ allDeclarations tailedRing,
      (run ⟨[], [], [], 3⟩ [] (tailedRing.map LocalsBlock.node)).1 =
        .error (.error (.cyclicReference ("local." ++ d.name))) := by
  have hwritten : ∀ d ∈ allDeclarations tailedRing, d.binding.WellFormed := by
    simp only [allDeclarations, tailedRing, List.flatMap_cons, List.flatMap_nil, List.append_nil,
      List.cons_append, List.nil_append, List.forall_mem_cons, Binding.WellFormed, true_and]
    exact ⟨⟨_, rfl⟩, by simp⟩
  have hring : Alias (allDeclarations tailedRing) "ring" "ring" :=
    ⟨⟨"ring", .reference "ring", none⟩, by simp [allDeclarations, tailedRing], rfl, rfl⟩
  have hendless : Endless (allDeclarations tailedRing) "ring" :=
    ⟨fun _ => "ring", rfl, fun _ => hring⟩
  have hexact := alias_cycles_exact ⟨[], [], [], 3⟩ [] (by decide) hwritten (by decide)
  obtain ⟨d, hd, hname, -⟩ := hring
  obtain ⟨stop, hstop⟩ := hexact.1.2 ⟨d, hd, hname ▸ hendless⟩
  obtain ⟨d', hd', -, rfl⟩ := hexact.2.1 stop hstop
  exact ⟨d', hd', hstop⟩

end HclEval
