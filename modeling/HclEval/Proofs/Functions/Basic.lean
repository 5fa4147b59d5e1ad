import HclEval.Builtin.Basic

/-!
What the built-in functions answer. All but a few depend on their arguments alone, neither on the
moment nor on the calls before, and do not fail.
-/
namespace HclEval.Builtin

/-- The built-in function of a name has this result for the arguments, whenever it is called. -/
def Answers (name : String) (arguments : List Value) (result : Except String Value) : Prop :=
  ∀ now before, ∃ f, (functions now).get? name = some f ∧ f before arguments = result

theorem Answers.unique {name : String} {arguments : List Value}
    {result result' : Except String Value} (h : Answers name arguments result)
    (h' : Answers name arguments result') : result = result' := by
  obtain ⟨f, hf, hresult⟩ := h 0 []
  obtain ⟨f', hf', hresult'⟩ := h' 0 []
  obtain rfl : f = f' := Option.some.inj (hf.symm.trans hf')
  exact hresult.symm.trans hresult'

theorem answers_total {name : String} {f : List Value → Option Value}
    (h : ∀ now, (functions now).get? name = some (total f)) (arguments : List Value) :
    Answers name arguments (.ok (Value.ofOption (f arguments))) :=
  fun now _ => ⟨total f, h now, rfl⟩

end HclEval.Builtin
