import HclEval.Proofs.Filling
import HclEval.Proofs.Staging

/-!
Places of a value. Places that do not lie in each other do not see what is written to the other,
and a tree that is found at a place of a value was there before the value was filled in, unless
it came with a result.
-/
namespace HclEval.Value

theorem at?_append (v : Value) (path rest : Path) :
    v.at? (path ++ rest) = (v.at? path).bind (·.at? rest) := by
  induction path generalizing v with
  | nil => rfl
  | cons step path ih =>
    simp only [List.cons_append, at?]
    cases v.child? step with
    | none => rfl
    | some child => exact ih child

theorem eq_of_prefix_of_at?_node {v w : Value} {path path' : Path} {tree : Node}
    (hpath : v.at? path = some (node tree)) (hpath' : v.at? path' = some w)
    (h : path <+: path') : path = path' := by
  obtain ⟨rest, rfl⟩ := h
  rw [at?_append, hpath] at hpath'
  cases rest with
  | nil => rw [List.append_nil]
  | cons step rest => cases step <;> cases hpath'

theorem at?_put_of_not_prefix (v w : Value) {path path' : Path} (h : ¬ path <+: path')
    (h' : ¬ path' <+: path) : (v.put path w).at? path' = v.at? path' := by
  induction path generalizing v path' with
  | nil => exact absurd (List.nil_prefix ..) h
  | cons step rest ih =>
    cases path' with
    | nil => exact absurd (List.nil_prefix ..) h'
    | cons step' rest' =>
      rw [List.cons_prefix_cons, not_and] at h h'
      by_cases hstep : step = step'
      · subst hstep
        have hchild (child : Value) : (child.put rest w).at? rest' = child.at? rest' :=
          ih child (h rfl) (h' rfl)
        cases v <;> cases step <;> simp only [put, at?, child?]
        case list.index items i =>
          rw [List.getElem?_modify_eq]
          cases items[i]? <;> simp [hchild]
        case map.key entries name =>
          rw [Table.get?_modify]
          cases Table.get? entries name <;> simp [hchild]
      · cases v <;> cases step <;> cases step' <;> simp only [put, at?, child?]
        case list.index.index items i j =>
          have hij : i ≠ j := fun heq => hstep (by rw [heq])
          rw [List.getElem?_modify_ne _ _ hij]
        case map.key.key entries name name' =>
          have hname : name ≠ name' := fun heq => hstep (by rw [heq])
          rw [Table.get?_modify_ne _ hname]

theorem at?_put_of_ne {v v' w : Value} {path path' : Path} {tree tree' : Node}
    (hpath : v.at? path = some (node tree)) (hpath' : v.at? path' = some (node tree'))
    (hne : path ≠ path') : (v'.put path w).at? path' = v'.at? path' :=
  at?_put_of_not_prefix v' w (fun h => hne (eq_of_prefix_of_at?_node hpath hpath' h))
    fun h => hne (eq_of_prefix_of_at?_node hpath' hpath h).symm

variable {m : Becoming} {trees results : Node → Prop}

theorem Fills.mono {m' : Becoming} (hm : ∀ tree w, m tree w → m' tree w) {v w : Value}
    (h : v.Fills m w) : v.Fills m' w := by
  induction v using Value.induction generalizing w with
  | list items ih =>
    obtain ⟨items', rfl, hitems⟩ := (fills_list ..).1 h
    refine (fills_list ..).2 ⟨items', rfl, ?_⟩
    clear h
    induction hitems with
    | nil => exact .nil
    | cons head _ tail =>
      rw [List.forall_mem_cons] at ih
      exact .cons (ih.1 head) (tail ih.2)
  | map entries ih =>
    obtain ⟨entries', rfl, hentries⟩ := (fills_map ..).1 h
    refine fills_map_map.2 ?_
    clear h
    induction hentries with
    | nil => exact .nil
    | cons head _ tail =>
      rw [List.forall_mem_cons] at ih
      exact .cons ⟨head.1, ih.1 head.2⟩ (tail ih.2)
  | node tree => exact (fills_node ..).2 (((fills_node ..).1 h).imp_right (hm tree w))
  | _ => simpa using h

theorem Fills.child?_of_child? {v w : Value} (h : v.Fills m w) (hv : ∀ tree, v ≠ node tree)
    {step : Step} {u : Value} (hu : w.child? step = some u) :
    ∃ u', v.child? step = some u' ∧ u'.Fills m u := by
  cases v
  case list items =>
    obtain ⟨items', rfl, hitems⟩ := (fills_list ..).1 h
    cases step with
    | key name => cases hu
    | index i =>
      have hrel := fills_getElem? hitems i
      simp only [Value.child?] at hu ⊢
      rw [hu] at hrel
      generalize items[i]? = u'? at hrel
      cases hrel with
      | some hfills => exact ⟨_, rfl, hfills⟩
  case map entries =>
    obtain ⟨entries', rfl, hentries⟩ := (fills_map ..).1 h
    cases step with
    | index i => cases hu
    | key name =>
      have hrel := fillsEntry_get? hentries name
      simp only [Value.child?] at hu ⊢
      rw [hu] at hrel
      generalize Table.get? entries name = u'? at hrel
      cases hrel with
      | some hfills => exact ⟨_, rfl, hfills⟩
  case node tree => exact absurd rfl (hv tree)
  all_goals
    obtain rfl : w = _ := by simpa using h
    cases step <;> cases hu

theorem Fills.tree_at? (hm : ∀ tree w, m tree w → w.Every results) {v w : Value}
    (h : v.Fills m w) {path : Path} {tree : Node} (hw : w.at? path = some (node tree)) :
    v.at? path = some (node tree) ∨ results tree := by
  induction path generalizing v w with
  | nil =>
    obtain rfl : w = node tree := by simpa [Value.at?] using hw
    cases v
    case node tree' =>
      rcases (fills_node ..).1 h with heq | hbecomes
      · exact .inl (congrArg some heq.symm)
      · exact .inr ((every_node _).1 (hm tree' _ hbecomes))
    all_goals simp at h
  | cons step rest ih =>
    obtain ⟨u, hu, hw⟩ := Option.bind_eq_some_iff.1 hw
    by_cases hnode : ∃ tree', v = node tree'
    · obtain ⟨tree', rfl⟩ := hnode
      rcases (fills_node ..).1 h with rfl | hbecomes
      · cases step <;> cases hu
      · exact .inr ((every_node _).1 (((hm tree' w hbecomes).child? hu).at? hw))
    · obtain ⟨u', hu', hfills⟩ := h.child?_of_child? (fun tree' heq => hnode ⟨tree', heq⟩) hu
      rw [Value.at?, hu', Option.bind_some]
      exact ih hfills hw

theorem Staged.narrow {trees' : Node → Prop} (sub : ∀ tree, results tree → trees' tree)
    {v : Value} (h : v.Staged trees results)
    (hv : ∀ path tree, v.at? path = some (node tree) → trees' tree) :
    v.Staged trees' results := by
  induction v using Value.induction with
  | list items ih =>
    rw [staged_list] at h ⊢
    intro u hu
    obtain ⟨i, hi, rfl⟩ := List.mem_iff_getElem.1 hu
    refine ih _ hu (h _ hu) fun path tree hat => hv (.index i :: path) tree ?_
    rw [Value.at?, Value.child?, List.getElem?_eq_getElem hi]
    exact hat
  | map entries ih =>
    obtain ⟨hidden, staged⟩ := (staged_map ..).1 h
    refine (staged_map ..).2 ⟨hidden, forall_of_hidesResults hidden
      (fun u hu => hu.staged sub) fun key u hu => ?_⟩
    have hmem := Table.mem_of_get? hu
    refine ih _ hmem (staged _ hmem) fun path tree hat => hv (.key key :: path) tree ?_
    rw [Value.at?, Value.child?, hu]
    exact hat
  | node tree => exact (staged_node _).2 (hv [] tree rfl)
  | _ => simp

end HclEval.Value
