import HclEval.Position
import Mathlib.Data.List.Infix
import Mathlib.Data.Prod.Lex
import Mathlib.Data.Set.Operations

/-!
Lines and columns of a source text. Each character that is read leads on in its line, or to the
start of the next one; so the places between the characters come in the order in which they are
read, and no two of them have the same line and column.
-/
namespace HclEval.Position

def place (p : Position) : ℕ ×ₗ ℕ := toLex (p.line, p.column)

/-- The offsets between two characters of a text, and those of its ends. -/
def boundaries (source : String) : Set ℕ := {i | String.Pos.Raw.IsValid source ⟨i⟩}

theorem byteLength_append (text more : List Char) :
    byteLength (text ++ more) = byteLength text + byteLength more := by
  induction text with
  | nil => exact (Nat.zero_add _).symm
  | cons c rest ih => rw [List.cons_append, byteLength, byteLength, ih, Nat.add_assoc]

theorem byteLength_toList (source : String) :
    byteLength source.toList = source.utf8ByteSize := by
  have hchars (text : List Char) : byteLength text = (String.ofList text).utf8ByteSize := by
    induction text with
    | nil => rfl
    | cons c rest ih =>
      rw [byteLength, ih, String.ofList_cons, String.utf8ByteSize_append,
        String.utf8ByteSize_singleton]
  rw [hchars, String.ofList_toList]

theorem exists_prefix_of_mem_boundaries {source : String} {i : ℕ} (h : i ∈ boundaries source) :
    ∃ text, text <+: source.toList ∧ byteLength text = i := by
  obtain ⟨text, rest, rfl, hi⟩ := String.Pos.Raw.isValid_iff_exists_append.mp h
  refine ⟨text.toList, ⟨rest.toList, String.toList_append.symm⟩, ?_⟩
  rw [byteLength_toList]
  exact (congrArg String.Pos.Raw.byteIdx hi).symm

theorem exists_append_of_byteLength_lt {source text text' : List Char} (h : text <+: source)
    (h' : text' <+: source) (hlt : byteLength text < byteLength text') :
    ∃ more, more ≠ [] ∧ text' = text ++ more := by
  rcases List.prefix_or_prefix_of_prefix h h' with ⟨more, rfl⟩ | ⟨more, rfl⟩
  · refine ⟨more, fun hmore => ?_, rfl⟩
    rw [hmore, List.append_nil] at hlt
    exact absurd hlt (Nat.lt_irrefl _)
  · rw [byteLength_append] at hlt
    exact absurd hlt (Nat.not_lt.mpr (Nat.le_add_right ..))

theorem before_append (text rest : List Char) :
    before (text ++ rest) (byteLength text) = text := by
  induction text with
  | nil =>
    cases rest with
    | nil => rfl
    | cons c rest => exact if_neg (Nat.not_le.mpr c.utf8Size_pos)
  | cons c text ih =>
    rw [List.cons_append, byteLength, before, if_pos (Nat.le_add_right ..), Nat.add_sub_cancel_left,
      ih]

theorem ofOffset_byteLength {source : String} {text : List Char} (h : text <+: source.toList) :
    ofOffset source (byteLength text) = after text := by
  obtain ⟨rest, hrest⟩ := h
  have hmin : min (byteLength text) (byteLength source.toList) = byteLength text := by
    rw [← hrest, byteLength_append]
    exact Nat.min_eq_left (Nat.le_add_right ..)
  rw [ofOffset, hmin, ← hrest, before_append]
  rfl

theorem ofOffset_of_le {source : String} {i : ℕ} (h : byteLength source.toList ≤ i) :
    ofOffset source i = after source.toList := by
  rw [ofOffset, before_of_length_le h, Nat.min_eq_right h]
  rfl

theorem lastLine_concat (text : List Char) (c : Char) :
    lastLine (text ++ [c]) = if c = '\n' then [] else lastLine text ++ [c] := by
  by_cases h : c = '\n' <;> simp [lastLine, h]

theorem lastLine_spec (text : List Char) :
    '\n' ∉ lastLine text ∧
      (text = lastLine text ∨ ∃ lines, text = lines ++ '\n' :: lastLine text) := by
  induction text using List.reverseRecOn with
  | nil => exact ⟨List.not_mem_nil, .inl rfl⟩
  | append_singleton text c ih =>
    rw [lastLine_concat]
    split
    · rename_i hnewline
      exact ⟨List.not_mem_nil, .inr ⟨text, by rw [hnewline]⟩⟩
    · rename_i hother
      obtain ⟨hline, htext⟩ := ih
      refine ⟨by simpa using ⟨hline, Ne.symm hother⟩, ?_⟩
      rcases htext with htext | ⟨lines, htext⟩
      · exact .inl (congrArg (· ++ [c]) htext)
      · exact .inr ⟨lines, by simpa using congrArg (· ++ [c]) htext⟩

theorem place_lt_concat (text : List Char) (c : Char) :
    (after text).place < (after (text ++ [c])).place := by
  rw [place, place, Prod.Lex.toLex_lt_toLex]
  by_cases h : c = '\n' <;> simp [after, lastLine_concat, h]

theorem place_lt_append (text : List Char) {more : List Char} (h : more ≠ []) :
    (after text).place < (after (text ++ more)).place := by
  induction more using List.reverseRecOn with
  | nil => exact absurd rfl h
  | append_singleton more c ih =>
    rcases eq_or_ne more [] with rfl | hmore
    · exact place_lt_concat text c
    · rw [← List.append_assoc]
      exact (ih hmore).trans (place_lt_concat _ c)

theorem strictMonoOn_place (source : String) :
    StrictMonoOn (fun i => (ofOffset source i).place) (boundaries source) := by
  intro i hi j hj hlt
  obtain ⟨text, htext, rfl⟩ := exists_prefix_of_mem_boundaries hi
  obtain ⟨text', htext', rfl⟩ := exists_prefix_of_mem_boundaries hj
  obtain ⟨more, hmore, rfl⟩ := exists_append_of_byteLength_lt htext htext' hlt
  simp only [ofOffset_byteLength htext, ofOffset_byteLength htext']
  exact place_lt_append text hmore

/-- Between the characters of a text later offsets are at later places, so that no two are on the
same line in the same column. Lines are counted by the newlines before the offset, columns by the
characters after the last of them; offsets beyond the end are at the end. -/
theorem positions_order_offsets (source : String) :
    StrictMonoOn (fun i => (ofOffset source i).place) (boundaries source) ∧
      Set.InjOn (fun i => (ofOffset source i).place) (boundaries source) ∧
      (∀ text rest : String, source = text ++ rest → ∃ line : List Char,
        '\n' ∉ line ∧ (text.toList = line ∨ ∃ lines, text.toList = lines ++ '\n' :: line) ∧
          ofOffset source text.utf8ByteSize =
            ⟨text.toList.count '\n' + 1, line.length + 1, text.utf8ByteSize⟩) ∧
      ∀ i, source.utf8ByteSize ≤ i → ofOffset source i = ofOffset source source.utf8ByteSize := by
  have hmono := strictMonoOn_place source
  refine ⟨hmono, hmono.injOn, ?counted, ?beyond⟩
  case counted =>
    rintro text rest rfl
    obtain ⟨hline, hlines⟩ := lastLine_spec text.toList
    have hprefix : text.toList <+: (text ++ rest).toList :=
      ⟨rest.toList, String.toList_append.symm⟩
    refine ⟨lastLine text.toList, hline, hlines, ?_⟩
    rw [← byteLength_toList, ofOffset_byteLength hprefix]
    rfl
  case beyond =>
    intro i hi
    rw [← byteLength_toList] at hi ⊢
    rw [ofOffset_of_le hi, ofOffset_of_le (Nat.le_refl _)]

theorem positions_order_offsets_accented :
    3 ∈ boundaries "aé\n\nb" ∧ 4 ∈ boundaries "aé\n\nb" ∧ 3 < 4 ∧
      (ofOffset "aé\n\nb" 3).place < (ofOffset "aé\n\nb" 4).place ∧
      "aé\n\nb" = "aé\n" ++ "\nb" ∧ (∃ line : List Char,
        '\n' ∉ line ∧ ("aé\n".toList = line ∨ ∃ lines, "aé\n".toList = lines ++ '\n' :: line) ∧
          ofOffset "aé\n\nb" 4 = ⟨2, line.length + 1, 4⟩) ∧
      "aé\n\nb".utf8ByteSize ≤ 9 ∧ ofOffset "aé\n\nb" 9 = ⟨3, 2, 6⟩ := by
  have hfirst : 3 ∈ boundaries "aé\n\nb" := by
    change String.Pos.Raw.IsValid "aé\n\nb" ⟨3⟩
    decide
  have hsecond : 4 ∈ boundaries "aé\n\nb" := by
    change String.Pos.Raw.IsValid "aé\n\nb" ⟨4⟩
    decide
  have hbeyond : "aé\n\nb".utf8ByteSize ≤ 9 := by decide
  obtain ⟨hmono, -, hcounted, hend⟩ := positions_order_offsets "aé\n\nb"
  refine ⟨hfirst, hsecond, by decide, hmono hfirst hsecond (by decide), by decide,
    hcounted "aé\n" "\nb" (by decide), hbeyond, ?_⟩
  rw [hend 9 hbeyond]
  decide

end HclEval.Position
