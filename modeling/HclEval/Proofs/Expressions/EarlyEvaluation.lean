import HclEval.Proofs.Expressions.Stillness
import HclEval.Proofs.Refinement

/-!
Early and late evaluation. The first pass evaluates what refers to nothing and leaves the rest for
the second, which comes to what an evaluation in one go comes to: what is evaluated early reads
nothing of the state, so it may be moved past any evaluation that comes before it otherwise.
-/
namespace HclEval

open Filter Reduction

structure State.Equivalent (s t : State) : Prop where
  document : t.document = s.document
  cache : t.cache = s.cache
  scopes : t.scopes = s.scopes
  resolving : t.resolving = s.resolving
  lookups : t.calls.filter (!·.isFunction) = s.calls.filter (!·.isFunction)

namespace State.Equivalent

variable {s t u : State} {made : List Call}

theorem refl (s : State) : s.Equivalent s := ⟨rfl, rfl, rfl, rfl, rfl⟩

theorem symm (h : s.Equivalent t) : t.Equivalent s :=
  ⟨h.document.symm, h.cache.symm, h.scopes.symm, h.resolving.symm, h.lookups.symm⟩

theorem trans (h : s.Equivalent t) (h' : t.Equivalent u) : s.Equivalent u :=
  ⟨h'.document.trans h.document, h'.cache.trans h.cache, h'.scopes.trans h.scopes,
    h'.resolving.trans h.resolving, h'.lookups.trans h.lookups⟩

theorem after (s : State) (h : OnlyFunctions made) : s.Equivalent (s.after made) := by
  have hmade : made.filter (!·.isFunction) = [] := by simpa [OnlyFunctions] using h
  refine ⟨rfl, rfl, rfl, rfl, ?_⟩
  rw [State.after, List.filter_append, hmade, List.append_nil]

end State.Equivalent

theorem State.advance_after (s : State) (made : List Call) {m : Value.Becoming} :
    s.Advance m (s.after made) := ⟨⟨rfl, rfl⟩, .refl _⟩

namespace Eval

variable {α β : Type}

theorem Still.outcome_ok {a : Eval α} (h : a.Still) {s s' : State} {x : α}
    (ha : a.outcome s = (.ok x, s')) :
    ∃ made, OnlyFunctions made ∧ ∀ t, a.outcome t = (.ok x, t.after made) := by
  obtain ⟨r, made, hmade, hall⟩ := h
  obtain rfl : r = .ok x := congrArg Prod.fst ((hall s).symm.trans ha)
  exact ⟨made, hmade, hall⟩

end Eval

namespace Coupling

def equivalent : Coupling where
  __ := refinement
  rel := State.Equivalent
  strict _ := False

variable {setting : Setting}

theorem equivalent_invoke (hsetting : setting.Repeatable) (name : String) (values : List Value) :
    equivalent.Sim (fun _ _ => True) (invoke setting name values)
      fun _ => invoke setting name values := by
  cases hf : setting.functions.get? name with
  | none =>
    rw [invoke_of_none hf]
    exact .pure fun _ => trivial
  | some f =>
    intro s t hst
    have houtcome := outcome_invoke_of_historyFree hsetting.history hf values
    have hcall := onlyFunctions_function name values
    refine .of_outcome (houtcome s) (houtcome t) ?_ ⟨⟨rfl, rfl⟩, .refl _⟩ ⟨rfl, rfl⟩
      fun _ _ => trivial
    exact ((State.Equivalent.after s hcall).symm.trans hst).trans (.after t hcall)

theorem equivalent_consult (hsetting : setting.Repeatable) {lookup : Lookup} {provider : String}
    (hlookup : setting.lookups.get? provider = some lookup) (inst : String)
    (properties : Table Value) :
    equivalent.Sim (fun _ _ => True) (consult lookup provider inst properties)
      fun _ => consult lookup provider inst properties := by
  intro s t hst
  have hresult : lookup t.calls properties = lookup s.calls properties := by
    rw [hsetting.lookups hlookup, hst.lookups, ← hsetting.lookups hlookup]
  have houtcome := outcome_consult lookup provider inst properties t
  rw [hresult] at houtcome
  refine .of_outcome (outcome_consult ..) houtcome ?_ ⟨⟨rfl, rfl⟩, .refl _⟩ ⟨rfl, rfl⟩
    fun _ _ => trivial
  refine ⟨hst.document, ?_, hst.scopes, hst.resolving, ?_⟩
  · rw [hst.cache]
  · simp only [List.filter_append, hst.lookups]

theorem equivalent_concord (hsetting : setting.Repeatable) :
    equivalent.Concord setting setting where
  vars_eq := rfl
  lookups_eq := rfl
  limit := .inl rfl
  document_eq h := h.document
  cache_eq h := h.cache
  resolving_eq h := h.resolving
  scopes_eq _ h := by rw [h.scopes]
  vars := Value.every_true _
  document _ := (Value.every_true _).staged fun _ h => h
  cache _ := Value.every_true _
  scopes _ _ := Value.every_true _
  unresolved _ := trivial
  put _ _ h _ _ := ⟨by rw [h.document], h.cache, h.scopes, h.resolving, h.lookups⟩
  consult _ hlookup _ :=
    (equivalent_consult hsetting hlookup _ _).mono fun _ _ _ => Value.every_true _
  enter h _ _ := ⟨h.document, h.cache, h.scopes, by rw [h.resolving], h.lookups⟩
  leave h h' := ⟨h'.document, h'.cache, h'.scopes, h.resolving, h'.lookups⟩
  becomes_of_every _ _ := trivial
  invoke name values _ :=
    (equivalent_invoke hsetting name values).mono fun _ _ _ => Value.every_true _
  scope _ := by
    refine Scoped.of_rel (fun s t scope hst _ => ?_) fun s t s' t' hst hst' => ?_
    · exact ⟨hst.document, hst.cache, by rw [hst.scopes], hst.resolving, hst.lookups⟩
    · exact ⟨hst'.document, hst'.cache, hst.scopes, hst'.resolving, hst'.lookups⟩

theorem equivalent_reduceNode (hsetting : setting.Repeatable) (depth : ℕ) (tree : Node) :
    equivalent.Sim (fun _ _ => True) (reduceNode setting depth tree)
      fun i => reduceNode setting i tree :=
  Sim.reduceNode ((eventually_ge_atTop depth).mono fun _ h => .inr ⟨h, id⟩)
    (equivalent_concord hsetting) trivial

section
variable {α β γ : Type} {a b c : ℕ → Eval α}

/-- Where one family of evaluations succeeds at some depth, another does from some depth on, and
both come to the same. -/
def Follows (a b : ℕ → Eval α) : Prop := ∀ depth, equivalent.Sim (fun _ _ => True) (a depth) b

theorem Follows.outcome (h : Follows a b) {s t s' : State} (hst : s.Equivalent t) {depth : ℕ}
    {x : α} (ha : (a depth).outcome s = (.ok x, s')) :
    ∃ t', (∀ᶠ i in atTop, (b i).outcome t = (.ok x, t')) ∧ s'.Equivalent t' ∧
      s.Advance equivalent.becomes s' ∧ t.Balanced t' := by
  obtain ⟨t', hb, hrel, hs, ht, -⟩ := h depth s t hst _ s' ha nofun
  exact ⟨t', hb, hrel, hs, ht⟩

theorem Follows.intro (h : ∀ {s t s' : State} {depth : ℕ} {x : α}, s.Equivalent t →
    (a depth).outcome s = (.ok x, s') → ∃ t', (∀ᶠ i in atTop, (b i).outcome t = (.ok x, t')) ∧
      s'.Equivalent t' ∧ s.Advance equivalent.becomes s' ∧ t.Balanced t') : Follows a b := by
  intro depth s t hst r s' ha hr
  cases r with
  | error e => exact (hr e rfl).elim
  | ok x =>
    obtain ⟨t', hb, hrel, hs, ht⟩ := h hst ha
    exact ⟨t', hb, hrel, hs, ht, fun _ _ => trivial⟩

theorem Follows.trans (hab : Follows a b) (hbc : Follows b c) : Follows a c := by
  refine .intro fun hst ha => ?_
  obtain ⟨t', hb, hrel, hs, ht⟩ := hab.outcome hst ha
  obtain ⟨i, hi⟩ := hb.exists
  obtain ⟨t'', hc, hrel', -, ht'⟩ := hbc.outcome (.refl _) hi
  exact ⟨t'', hc, hrel.trans hrel', hs, ht'⟩

theorem Follows.congr_left {a' : ℕ → Eval α} (h : Follows a b)
    (ha : ∀ depth s, (a' depth).outcome s = (a depth).outcome s) : Follows a' b :=
  .intro fun hst h' => h.outcome hst (by rw [← ha, h'])

theorem Follows.congr_right {b' : ℕ → Eval α} (h : Follows a b)
    (hb : ∀ depth s, (b' depth).outcome s = (b depth).outcome s) : Follows a b' := by
  refine .intro fun {_ t _ _ _} hst h' => ?_
  obtain ⟨t', hb', rest⟩ := h.outcome hst h'
  exact ⟨t', hb'.mono fun i hi => by rw [hb, hi], rest⟩

theorem Follows.bind {f g : ℕ → α → Eval β} (hab : Follows a b)
    (hfg : ∀ x, Follows (fun i => f i x) fun i => g i x) :
    Follows (fun i => a i >>= f i) fun i => b i >>= g i :=
  fun depth => (hab depth).bind fun x s t _ hst => hfg x depth s t hst

theorem Follows.pure (x : α) : Follows (fun _ => pure x) fun _ => pure x :=
  fun _ => Sim.pure fun _ => trivial

theorem Follows.mapM {xs : List γ} {f g : ℕ → γ → Eval β}
    (h : ∀ x ∈ xs, Follows (fun i => f i x) fun i => g i x) :
    Follows (fun i => xs.mapM (f i)) fun i => xs.mapM (g i) :=
  fun depth => (Sim.mapM fun x hx => h x hx depth).mono fun _ _ _ => trivial

theorem Follows.succ (h : Follows a a) :
    Follows (fun i => a (i + 1)) a ∧ Follows a fun i => a (i + 1) := by
  refine ⟨fun depth => h (depth + 1), .intro fun hst ha => ?_⟩
  obtain ⟨t', hsame, rest⟩ := h.outcome hst ha
  exact ⟨t', (tendsto_add_atTop_nat 1).eventually hsame, rest⟩

section
variable {f : ℕ → α → β → Eval γ} {b : ℕ → Eval β} (hstill : ∀ depth, (b depth).Still)
variable (ha : Follows a a) (hb : Follows b b) (hf : ∀ x y, Follows (f · x y) (f · x y))
include hstill ha hb hf

/-- What reads nothing of the state may come after another evaluation instead of before it. -/
theorem Follows.postpone : Follows (fun i => b i >>= fun y => a i >>= fun x => f i x y)
    fun i => a i >>= fun x => b i >>= fun y => f i x y := by
  refine .intro fun {s t s' depth z} hst h => ?_
  obtain ⟨y, s₁, hy, h⟩ := Eval.outcome_bind_eq_ok.mp h
  obtain ⟨made, hmade, hmove⟩ := (hstill depth).outcome_ok hy
  obtain rfl : s₁ = s.after made := congrArg Prod.snd (hy.symm.trans (hmove s))
  obtain ⟨x, s₂, hx, hz⟩ := Eval.outcome_bind_eq_ok.mp h
  obtain ⟨t₁, ha', hequiv, hadv, hbal⟩ :=
    ha.outcome ((State.Equivalent.after s hmade).symm.trans hst) hx
  obtain ⟨t₂, hb', hequiv', -, hbal'⟩ := hb.outcome (.refl t₁) (hmove t₁)
  obtain ⟨t₃, hf', hdone, hadv', hbal''⟩ :=
    (hf x y).outcome (hequiv.trans ((State.Equivalent.after t₁ hmade).trans hequiv')) hz
  refine ⟨t₃, ?_, hdone, ?_, hbal.trans (hbal'.trans hbal'')⟩
  · filter_upwards [ha', hb', hf'] with i hi hi' hi''
    rw [Eval.outcome_bind_ok hi, Eval.outcome_bind_ok hi', hi'']
  · exact (State.advance_after s made).trans equivalent.closed (hadv.trans equivalent.closed hadv')

theorem Follows.advance : Follows (fun i => a i >>= fun x => b i >>= fun y => f i x y)
    fun i => b i >>= fun y => a i >>= fun x => f i x y := by
  refine .intro fun {s t s' depth z} hst h => ?_
  obtain ⟨x, s₁, hx, h⟩ := Eval.outcome_bind_eq_ok.mp h
  obtain ⟨y, s₂, hy, hz⟩ := Eval.outcome_bind_eq_ok.mp h
  obtain ⟨made, hmade, hmove⟩ := (hstill depth).outcome_ok hy
  obtain rfl : s₂ = s₁.after made := congrArg Prod.snd (hy.symm.trans (hmove s₁))
  obtain ⟨t₁, hb', hequiv, -, hbal⟩ := hb.outcome (.refl t) (hmove t)
  obtain ⟨t₂, ha', hequiv', hadv, hbal'⟩ :=
    ha.outcome (hst.trans ((State.Equivalent.after t hmade).trans hequiv)) hx
  obtain ⟨t₃, hf', hdone, hadv', hbal''⟩ :=
    (hf x y).outcome ((State.Equivalent.after s₁ hmade).symm.trans hequiv') hz
  refine ⟨t₃, ?_, hdone, ?_, hbal.trans (hbal'.trans hbal'')⟩
  · filter_upwards [ha', hb', hf'] with i hi hi' hi''
    rw [Eval.outcome_bind_ok hi', Eval.outcome_bind_ok hi, hi'']
  · exact hadv.trans equivalent.closed ((State.advance_after s₁ made).trans equivalent.closed hadv')

end

def Agree (a b : ℕ → Eval α) : Prop := Follows a b ∧ Follows b a

theorem Follows.agree (h : Follows a a) : Agree a a := ⟨h, h⟩

theorem Agree.trans (h : Agree a b) (h' : Agree b c) : Agree a c :=
  ⟨h.1.trans h'.1, h'.2.trans h.2⟩

theorem Agree.congr {a' : ℕ → Eval α} (h : Agree a b)
    (ha : ∀ depth s, (a' depth).outcome s = (a depth).outcome s) : Agree a' b :=
  ⟨h.1.congr_left ha, h.2.congr_right ha⟩

theorem Agree.congr_right {b' : ℕ → Eval α} (h : Agree a b)
    (hb : ∀ depth s, (b' depth).outcome s = (b depth).outcome s) : Agree a b' :=
  ⟨h.1.congr_right hb, h.2.congr_left hb⟩

theorem Agree.bind {f g : ℕ → α → Eval β} (hab : Agree a b)
    (hfg : ∀ x, Agree (fun i => f i x) fun i => g i x) :
    Agree (fun i => a i >>= f i) fun i => b i >>= g i :=
  ⟨hab.1.bind fun x => (hfg x).1, hab.2.bind fun x => (hfg x).2⟩

theorem Agree.map (h : Agree a b) (f : α → β) :
    Agree (fun i => a i >>= fun x => pure (f x)) fun i => b i >>= fun x => pure (f x) :=
  h.bind fun x => (Follows.pure (f x)).agree

theorem Agree.mapM {xs : List γ} {f g : ℕ → γ → Eval β}
    (h : ∀ x ∈ xs, Agree (fun i => f i x) fun i => g i x) :
    Agree (fun i => xs.mapM (f i)) fun i => xs.mapM (g i) :=
  ⟨.mapM fun x hx => (h x hx).1, .mapM fun x hx => (h x hx).2⟩

theorem Follows.swap {f : ℕ → α → β → Eval γ} {b : ℕ → Eval β} (hstill : ∀ i, (b i).Still)
    (ha : Follows a a) (hb : Follows b b) (hf : ∀ x y, Follows (f · x y) (f · x y)) :
    Agree (fun i => b i >>= fun y => a i >>= fun x => f i x y)
      fun i => a i >>= fun x => b i >>= fun y => f i x y :=
  ⟨.postpone hstill ha hb hf, .advance hstill ha hb hf⟩

end

section
variable (hsetting : setting.Repeatable)
include hsetting

theorem follows_reduceNode (tree : Node) :
    Follows (fun i => reduceNode setting i tree) fun i => reduceNode setting i tree :=
  fun depth => equivalent_reduceNode hsetting depth tree

theorem follows_reduceValue (v : Value) :
    Follows (fun i => reduceValue (reduceNode setting i) v)
      fun i => reduceValue (reduceNode setting i) v := fun depth =>
  (Sim.reduceValue (fun tree _ => equivalent_reduceNode hsetting depth tree)
    (Value.every_true v)).mono fun _ _ _ => trivial

theorem follows_reduceItems (items : List Value) :
    Follows (fun i => reduceItems (reduceNode setting i) items)
      fun i => reduceItems (reduceNode setting i) items := fun depth =>
  (Sim.reduceItems fun v _ => (follows_reduceValue hsetting v depth).mono
    fun v _ _ => Value.every_true v).mono fun _ _ _ => trivial

theorem follows_structureValue (node : Node) :
    Follows (fun i => structureValue (reduceNode setting i) node)
      fun i => structureValue (reduceNode setting i) node := fun depth =>
  (Sim.structureValue (.of_becomes fun tree _ => equivalent_reduceNode hsetting depth tree)
    node trivial).mono fun _ _ _ => trivial

theorem follows_structureValues (nodes : List Node) :
    Follows (fun i => structureValues (reduceNode setting i) nodes)
      fun i => structureValues (reduceNode setting i) nodes := fun depth =>
  (Sim.structureValues (.of_becomes fun tree _ => equivalent_reduceNode hsetting depth tree)
    nodes fun _ _ => trivial).mono fun _ _ _ => trivial

end

end Coupling

namespace Reduction

def inTwoPasses (setting : Setting) (depth : ℕ) (node : Node) : Eval Value :=
  structureValue (reduceNode setting depth) node >>= reduceValue (reduceNode setting depth)

theorem outcome_bind_reduceValue {a : Eval Value}
    (h : ∀ s v s', a.outcome s = (.ok v, s') → v.Every fun _ => False) (reduce : Node → Eval Value)
    (s : State) : (a >>= reduceValue reduce).outcome s = a.outcome s := by
  rcases ha : a.outcome s with ⟨e | v, s'⟩
  · exact Eval.outcome_bind_error ha _
  · rw [Eval.outcome_bind_ok ha, outcome_reduceValue_of_free reduce (h s v s' ha)]

end Reduction

namespace Coupling

variable {setting : Setting}

section
variable (hsetting : setting.Repeatable)
include hsetting

theorem agree_elements {elements : List Node} (helements : ∀ e ∈ elements, e.Operand) :
    Agree (fun i => structureValues (reduceNode setting i) elements >>=
      reduceItems (reduceNode setting i)) fun i => elements.mapM (inTwoPasses setting i) := by
  induction elements with
  | nil => exact (Follows.pure []).agree
  | cons element rest ih =>
    simp only [List.forall_mem_cons] at helements
    have hfirst (i : ℕ) : structureValues (reduceNode setting i) (element :: rest) >>=
          reduceItems (reduceNode setting i) =
        structureValue (reduceNode setting i) element >>= fun v =>
          structureValues (reduceNode setting i) rest >>= fun vs =>
            reduceValue (reduceNode setting i) v >>= fun w =>
              reduceItems (reduceNode setting i) vs >>= fun ws => pure (w :: ws) := by
      simp only [structureValues, bind_assoc]
      rfl
    have heach (i : ℕ) : (element :: rest).mapM (inTwoPasses setting i) =
        structureValue (reduceNode setting i) element >>= fun v =>
          reduceValue (reduceNode setting i) v >>= fun w =>
            rest.mapM (inTwoPasses setting i) >>= fun ws => pure (w :: ws) := by
      simp only [List.mapM_cons, inTwoPasses, bind_assoc]
    have hregroup (i : ℕ) (w : Value) : structureValues (reduceNode setting i) rest >>= (fun vs =>
          reduceItems (reduceNode setting i) vs >>= fun ws => pure (w :: ws)) =
        (structureValues (reduceNode setting i) rest >>= reduceItems (reduceNode setting i)) >>=
          fun ws => pure (w :: ws) := by
      rw [bind_assoc]
    have hvalue (v : Value) := follows_reduceValue hsetting v
    have hitems (w : Value) (vs : List Value) :=
      (follows_reduceItems hsetting vs).bind fun ws => Follows.pure (w :: ws)
    simp only [hfirst, heach]
    refine (follows_structureValue hsetting element).agree.bind fun v => ?_
    refine (Follows.swap (fun i => still_structureValues i hsetting helements.2) (hvalue v)
      (follows_structureValues hsetting rest) hitems).trans ?_
    simp only [hregroup]
    exact (hvalue v).agree.bind fun w => (ih helements.2).map (w :: ·)

theorem agree_succ (node : Node) :
    Agree (fun i => reduceNode setting (i + 1) node) fun i => reduceNode setting i node :=
  (follows_reduceNode hsetting node).succ

theorem agree_deferred {node : Node} (hnode : ∀ reduce, structureValue reduce node =
      if node.hasReferences then pure (.node node) else reduce node) :
    Agree (fun i => inTwoPasses setting i node) fun i => reduceNode setting i node := by
  refine (follows_reduceNode hsetting node).agree.congr fun i s => ?_
  rw [inTwoPasses, hnode]
  cases h : node.hasReferences with
  | true => rfl
  | false =>
    exact outcome_bind_reduceValue (fun s v s' hv => free_of_reduceNode hsetting i h hv) _ s

/-- What the first pass makes of an operand comes to what the operand comes to. -/
theorem agree_early {node : Node} (h : node.Operand) :
    Agree (fun i => inTwoPasses setting i node) fun i => reduceNode setting i node := by
  induction h with
  | @atom node hatom =>
    cases node with
    | literal kind raw =>
      refine (agree_succ hsetting _).congr fun i s =>
        outcome_bind_reduceValue (fun s v s' hv => ?_) _ s
      change (Eval.ofExcept (literalValue kind raw)).outcome s = _ at hv
      cases hvalue : literalValue kind raw with
      | error e =>
        rw [hvalue] at hv
        cases hv
      | ok w =>
        rw [hvalue] at hv
        cases hv
        exact every_literalValue hvalue
    | type marker => exact (agree_succ hsetting _).congr fun i s => rfl
    | reference _ | comprehension _ _ _ _ _ _ _ | call _ _ _ | group _ | interpolation _ =>
      exact agree_deferred hsetting fun _ => rfl
    | _ => cases hatom
  | @array elements helements ih =>
    cases hempty : elements.isEmpty with
    | true =>
      refine (agree_succ hsetting _).congr fun i s => ?_
      rw [inTwoPasses, structureValue, reduceNode, reduceStep, if_pos hempty, if_pos hempty]
      rfl
    | false =>
      have hlists := (agree_elements hsetting helements).trans (.mapM ih)
      refine (((hlists.map Value.list).congr fun i s => ?_).congr_right fun i s => ?_).trans
        (agree_succ hsetting _)
      · rw [inTwoPasses, structureValue, if_neg (by simp [hempty]), bind_assoc, bind_assoc]
        rfl
      · rw [reduceNode, reduceStep, if_neg (by simp [hempty])]
  | @map entries hentry hvalue =>
    cases hkeyed : entries.any Node.isKeyed with
    | true =>
      refine (follows_reduceNode hsetting _).agree.congr fun i s => ?_
      rw [inTwoPasses, structureValue, if_pos hkeyed]
      rfl
    | false =>
      refine (agree_succ hsetting _).congr fun i s => ?_
      rw [inTwoPasses, structureValue, if_neg (by simp [hkeyed]), bind_assoc]
      rfl

end

end Coupling

/-- At some depth evaluations of a family succeed, with this value, document and results of
lookups. -/
def Yields (a : ℕ → Eval Value) (s : State) (v : Value) (document : Document)
    (cache : LookupCache) : Prop :=
  ∃ depth s', (a depth).outcome s = (.ok v, s') ∧ s'.document = document ∧ s'.cache = cache

theorem Coupling.Follows.yields {a b : ℕ → Eval Value} (h : Coupling.Follows a b) {s : State}
    {v : Value} {document : Document} {cache : LookupCache} (ha : Yields a s v document cache) :
    Yields b s v document cache := by
  obtain ⟨depth, s', ha, rfl, rfl⟩ := ha
  obtain ⟨t', hb, hequiv, -⟩ := h.outcome (.refl s) ha
  obtain ⟨i, hi⟩ := hb.exists
  exact ⟨i, t', hi, hequiv.document, hequiv.cache⟩

theorem Coupling.Agree.yields_iff {a b : ℕ → Eval Value} (h : Coupling.Agree a b) (s : State)
    (v : Value) (document : Document) (cache : LookupCache) :
    Yields a s v document cache ↔ Yields b s v document cache :=
  ⟨h.1.yields, h.2.yields⟩

/-- Early evaluation agrees with late evaluation: from any state, the operand of an expression and
what the first pass makes of it come to the same value, and leave the same document and the same
results of lookups; and so do the child of an attribute that the first pass converts and the value
that it gives the attribute. -/
theorem early_evaluation_agrees {setting : Setting} (hsetting : setting.Repeatable)
    {scope : Source.Scope} (hscope : scope.AtomicTemplates) (expr : Source.Expr) :
    (∀ node, expr.node scope = .ok node →
      ∀ s v document cache,
        Yields (fun i => structureValue (reduceNode setting i) node >>=
          reduceValue (reduceNode setting i)) s v document cache ↔
        Yields (fun i => reduceNode setting i node) s v document cache) ∧
    ∀ child, expr.nodes scope = .ok [child] →
      child.isPlain = true → ∀ whole s v document cache,
        Yields (fun i => structureChildren (reduceNode setting i) whole [child] >>=
          reduceValue (reduceNode setting i)) s v document cache ↔
        Yields (fun i => evaluate (reduceNode setting i) [child]) s v document cache := by
  constructor
  · intro node hnode
    exact (Coupling.agree_early hsetting (Source.operand_node hscope expr hnode)).yields_iff
  · intro child hchild hplain whole
    have hoperand : child.Operand := Source.operand_of_mem_nodes hscope expr hchild child
      (List.mem_singleton_self child) (Node.isOperator_of_isPlain hplain)
    simp only [structureChildren, structureOnly_of_isPlain _ _ hplain,
      evaluate_singleton _ (Node.isOperator_of_isPlain hplain)]
    exact (Coupling.agree_early hsetting hoperand).yields_iff

def firstSetting : Setting := ⟨[("first", fun _ values => .ok (values.headD .null))], [], [], 8⟩

theorem repeatable_firstSetting : firstSetting.Repeatable where
  history {name f} h := by
    simp only [firstSetting, Table.get?] at h
    split at h <;> cases h
    intro calls values
    rfl
  free {name f values v} h hvalues hv := by
    simp only [firstSetting, Table.get?] at h
    split at h <;> cases h
    cases hv
    cases values with
    | nil => exact Value.every_null
    | cons u _ => exact hvalues u (List.mem_cons_self ..)
  lookups h := by cases h

theorem early_evaluation_agrees_array :
    let node : Node := .array [.reference [.segment "x"], .call "first" [.string "a"] false]
    let s : State := { document := [("x", .node (.string "b"))] }
    Yields (fun i => structureValue (reduceNode firstSetting i) node >>=
        reduceValue (reduceNode firstSetting i)) s (.list [.string "b", .string "a"])
        [("x", .string "b")] [] ∧
      Yields (fun i => structureChildren (reduceNode firstSetting i) (.named "y" [node] none) [node]
        >>= reduceValue (reduceNode firstSetting i)) s (.list [.string "b", .string "a"])
        [("x", .string "b")] [] := by
  intro node s
  let s' : State :=
    { document := [("x", .string "b")], calls := [.function "first" [.string "a"]] }
  have hvalue : (reduceNode firstSetting 4 node).outcome s =
      (.ok (.list [.string "b", .string "a"]), s') := rfl
  have hlate : (evaluate (reduceNode firstSetting 4) [node]).outcome s =
      (.ok (.list [.string "b", .string "a"]), s') := by
    rw [evaluate_singleton _ rfl, hvalue]
  have hexpr := early_evaluation_agrees repeatable_firstSetting
    (Source.atomicTemplates_scopeWithin false none 0)
    (.array [.variable "x", .call "first" [.string "a"] false])
  exact ⟨(hexpr.1 node rfl s _ _ _).2 ⟨4, s', hvalue, rfl, rfl⟩,
    (hexpr.2 node rfl rfl _ s _ _ _).2 ⟨4, s', hlate, rfl, rfl⟩⟩

end HclEval
