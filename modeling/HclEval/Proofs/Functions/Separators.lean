import HclEval.Proofs.Functions.Basic
import Mathlib.Data.List.Infix

/-!
Splitting and joining texts. What is split at a separator is joined by it again, whatever the
separator is; texts joined by a character that none of them has are split again.
-/
namespace HclEval.Builtin

theorem pieces_ne_nil (separator : List Char) (skip : ℕ) (text : List Char) :
    pieces separator skip text ≠ [] := by
  fun_induction pieces separator skip text with
  | case2 skip _ rest ih => exact ih
  | _ => exact List.cons_ne_nil _ _

theorem join_cons (separator : List Char) {parts : List (List Char)} (h : parts ≠ [])
    (part : List Char) :
    join separator (part :: parts) = part ++ separator ++ join separator parts :=
  List.intercalate_cons_of_ne_nil h

theorem join_cons_cons (separator : List Char) (c : Char) (part : List Char)
    (parts : List (List Char)) :
    join separator ((c :: part) :: parts) = c :: join separator (part :: parts) := by
  cases parts <;> simp [join, List.intercalate_cons_cons]

theorem join_nil (parts : List (List Char)) : join [] parts = parts.flatten := by
  induction parts with
  | nil => rfl
  | cons part rest ih =>
    by_cases hrest : rest = []
    · simp [hrest, join]
    · rw [join_cons [] hrest, List.append_nil, ih, List.flatten_cons]

theorem join_pieces {separator : List Char} (hseparator : separator ≠ []) (skip : ℕ)
    (text : List Char) : join separator (pieces separator skip text) = text.drop skip := by
  fun_induction pieces separator skip text with
  | case1 skip => simp [join]
  | case2 skip c rest ih => exact ih
  | case3 c rest hfound ih =>
    obtain ⟨d, more, rfl⟩ := List.exists_cons_of_ne_nil hseparator
    obtain ⟨tail, htail⟩ := List.isPrefixOf_iff_prefix.mp hfound
    obtain ⟨rfl, rfl⟩ : d = c ∧ more ++ tail = rest := by simpa using htail
    rw [join_cons _ (pieces_ne_nil _ _ _), ih]
    simp
  | case4 c rest _ piece others hpieces ih =>
    rw [join_cons_cons, ← hpieces, ih, List.drop_zero, List.drop_zero]
  | case5 c rest _ hpieces => exact absurd hpieces (pieces_ne_nil _ _ _)

theorem join_split (separator text : List Char) : join separator (split separator text) = text := by
  rcases separator with _ | ⟨c, more⟩
  · -- the empty separator stands around every character
    simp [split, join_nil, ← List.flatMap_def]
  · rw [split, if_neg (by simp), join_pieces (List.cons_ne_nil c more), List.drop_zero]

theorem pieces_singleton (c : Char) (text : List Char) : pieces [c] 0 text = text.splitOn c := by
  induction text with
  | nil => rfl
  | cons d rest ih =>
    rw [List.splitOn_eq_splitOnP, List.splitOnP_cons_eq_if_modifyHead, ← List.splitOn_eq_splitOnP,
      ← ih]
    by_cases hd : d = c
    · simp [pieces, hd]
    · have hne : c ≠ d := Ne.symm hd
      obtain ⟨piece, others, hpieces⟩ := List.exists_cons_of_ne_nil (pieces_ne_nil [c] 0 rest)
      simp [pieces, hd, hne, hpieces]

theorem split_join {c : Char} {parts : List (List Char)} (hne : parts ≠ [])
    (hparts : ∀ part ∈ parts, c ∉ part) : split [c] (join [c] parts) = parts := by
  rw [split, if_neg (by simp), pieces_singleton]
  exact List.splitOn_intercalate c hparts hne

theorem prefix_of_pieces {separator text piece : List Char} {others : List (List Char)}
    (h : pieces separator 0 text = piece :: others) :
    piece <+: text ∧ ∀ i < piece.length, ¬ separator <+: text.drop i := by
  have hnone {text : List Char} :
      [] <+: text ∧ ∀ i < ([] : List Char).length, ¬ separator <+: text.drop i :=
    ⟨List.nil_prefix, fun i hi => absurd hi (Nat.not_lt_zero i)⟩
  induction text generalizing piece others with
  | nil =>
    cases h
    exact hnone
  | cons c rest ih =>
    rw [pieces] at h
    split at h
    · cases h
      exact hnone
    · rename_i hfound
      obtain ⟨piece', others', hpieces⟩ :=
        List.exists_cons_of_ne_nil (pieces_ne_nil separator 0 rest)
      rw [hpieces] at h
      cases h
      obtain ⟨hstarts, hbefore⟩ := ih hpieces
      refine ⟨List.cons_prefix_cons.mpr ⟨rfl, hstarts⟩, fun i hi => ?_⟩
      cases i with
      | zero => exact fun h => hfound (List.isPrefixOf_iff_prefix.mpr h)
      | succ i => exact hbefore i (Nat.lt_of_succ_lt_succ hi)

theorem not_infix_of_mem_pieces {separator : List Char} (hseparator : separator ≠ []) (skip : ℕ)
    (text : List Char) : ∀ piece ∈ pieces separator skip text, ¬ separator <:+: piece := by
  have hnil : ¬ separator <:+: [] := fun h => hseparator (List.infix_nil.mp h)
  fun_induction pieces separator skip text with
  | case1 skip => simpa using hnil
  | case2 skip c rest ih => exact ih
  | case3 c rest hfound ih => exact List.forall_mem_cons.mpr ⟨hnil, ih⟩
  | case4 c rest hfound piece others hpieces ih =>
    have hfirst : pieces separator 0 (c :: rest) = (c :: piece) :: others := by
      rw [pieces, if_neg hfound, hpieces]
    obtain ⟨hstarts, hbefore⟩ := prefix_of_pieces hfirst
    refine List.forall_mem_cons.mpr ⟨?_, fun other hmem => ih other ?_⟩
    · rintro ⟨front, back, heq⟩
      have hlength : front.length < (c :: piece).length := by
        have := List.length_pos_iff.mpr hseparator
        rw [← heq, List.length_append, List.length_append]
        omega
      have hoccurs : separator <+: (c :: piece).drop front.length := by
        rw [← heq, List.append_assoc, List.drop_left]
        exact List.prefix_append _ _
      exact hbefore _ hlength (hoccurs.trans (hstarts.drop _))
    · exact hpieces ▸ List.mem_cons_of_mem _ hmem
  | case5 c rest _ hpieces => exact absurd hpieces (pieces_ne_nil _ _ _)

theorem not_infix_of_mem_split {separator text piece : List Char} (hseparator : separator ≠ [])
    (h : piece ∈ split separator text) : ¬ separator <:+: piece := by
  rw [split, if_neg (by simpa using hseparator)] at h
  exact not_infix_of_mem_pieces hseparator 0 text piece h

theorem answers_split (separator value : String) :
    Answers "split" [.string separator, .string value]
      (.ok (.list ((split separator.toList value.toList).map text))) :=
  answers_total (f := splitText) (fun _ => rfl) _

theorem answers_join (separator : String) (parts : List String) :
    Answers "join" [.string separator, .list (parts.map .string)]
      (.ok (text (join separator.toList (parts.map String.toList)))) := by
  have htexts : (parts.map Value.string).map (·.text.toList) = parts.map String.toList :=
    List.map_map
  have hanswer : Answers "join" [.string separator, .list (parts.map .string)]
      (.ok (Value.ofOption (joinTexts [.string separator, .list (parts.map .string)]))) :=
    answers_total (fun _ => rfl) _
  have hjoin : joinTexts [.string separator, .list (parts.map .string)] =
      some (text (join separator.toList ((parts.map Value.string).map (·.text.toList)))) := rfl
  rwa [hjoin, htexts] at hanswer

/-- Splitting a text at any separator, the empty one included, and joining the parts by it gives
the text; parts of a separator that is not empty do not have it in them. Joining texts by a
character that none of them has, and splitting at it, gives the texts. -/
theorem split_and_join_inverse :
    (∀ separator value : String, ∃ parts : List String,
      Answers "split" [.string separator, .string value] (.ok (.list (parts.map .string))) ∧
        Answers "join" [.string separator, .list (parts.map .string)] (.ok (.string value)) ∧
        (separator ≠ "" → ∀ part ∈ parts, ¬ separator.toList <:+: part.toList)) ∧
    ∀ (c : Char) (parts : List String), parts ≠ [] → (∀ part ∈ parts, c ∉ part.toList) →
      ∃ value : String,
        Answers "join" [.string (.singleton c), .list (parts.map .string)] (.ok (.string value)) ∧
          Answers "split" [.string (.singleton c), .string value]
            (.ok (.list (parts.map .string))) := by
  refine ⟨fun separator value => ?_, fun c parts hne hparts => ?_⟩
  · set found := split separator.toList value.toList with hfound
    have hchars : (found.map String.ofList).map String.toList = found := by simp
    have hsplit := answers_split separator value
    have hjoin := answers_join separator (found.map String.ofList)
    rw [hchars, hfound, join_split, text, String.ofList_toList] at hjoin
    refine ⟨found.map String.ofList, ?_, hjoin, fun hseparator part hpart => ?_⟩
    · rwa [List.map_map]
    · obtain ⟨piece, hpiece, rfl⟩ := List.mem_map.mp hpart
      rw [String.toList_ofList]
      exact not_infix_of_mem_split (by simpa using hseparator) hpiece
  · have hcharacter : (String.singleton c).toList = [c] := String.toList_singleton c
    set joined := join [c] (parts.map String.toList) with hjoined
    have hsplits : split [c] joined = parts.map String.toList :=
      split_join (by simpa using hne) (by simpa using hparts)
    have hjoin := answers_join (.singleton c) parts
    have hsplit := answers_split (.singleton c) (String.ofList joined)
    rw [hcharacter] at hjoin
    rw [hcharacter, String.toList_ofList, hsplits, List.map_map] at hsplit
    refine ⟨String.ofList joined, hjoin, ?_⟩
    simpa [Function.comp_def, text] using hsplit

theorem split_and_join_inverse_overlap :
    ("aa" ≠ "" ∧ ∃ parts : List String,
      Answers "split" [.string "aa", .string "aaaba"] (.ok (.list (parts.map .string))) ∧
        Answers "join" [.string "aa", .list (parts.map .string)] (.ok (.string "aaaba")) ∧
        ∀ part ∈ parts, ¬ "aa".toList <:+: part.toList) ∧
    (["a", "", "b"] ≠ [] ∧ (∀ part ∈ ["a", "", "b"], '-' ∉ part.toList) ∧ ∃ value : String,
      Answers "join" [.string (.singleton '-'), .list (["a", "", "b"].map .string)]
        (.ok (.string value)) ∧
      Answers "split" [.string (.singleton '-'), .string value]
        (.ok (.list (["a", "", "b"].map .string)))) := by
  have hseparator : "aa" ≠ "" := by decide
  have hparts : ∀ part ∈ ["a", "", "b"], '-' ∉ part.toList := by decide
  obtain ⟨parts, hsplit, hjoin, hclean⟩ := split_and_join_inverse.1 "aa" "aaaba"
  exact ⟨⟨hseparator, parts, hsplit, hjoin, hclean hseparator⟩, List.cons_ne_nil _ _, hparts,
    split_and_join_inverse.2 '-' ["a", "", "b"] (List.cons_ne_nil _ _) hparts⟩

end HclEval.Builtin
