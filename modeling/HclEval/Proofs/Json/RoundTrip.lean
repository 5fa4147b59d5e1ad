import HclEval.Builtin.Basic
import HclEval.Proofs.Json.Portable
import HclEval.Proofs.Json.Strings

/-!
JSON texts of values read back. What is written for a value is read as that value, whatever may
follow it in a text, so the parts of lists and maps are read one after the other. Only the sign of
zero is lost.
-/
namespace HclEval

namespace Json

open Value

theorem skipSpace_cons {c : Char} (hc : isSpace c = false) (rest : List Char) :
    skipSpace (c :: rest) = c :: rest := by
  rw [skipSpace, List.dropWhile_cons_of_neg (by simp [hc])]

theorem toList_quoteString (text : String) :
    (quoteString text).toList = '"' :: text.toList.flatMap escapeChar ++ ['"'] := by
  rw [quoteString, String.toList_ofList, quote]

def commaSeparated (texts : List String) : List Char :=
  (",".intercalate texts).toList

theorem commaSeparated_cons (text : String) (rest : List String) :
    commaSeparated (text :: rest) =
      text.toList ++ if rest = [] then [] else ',' :: commaSeparated rest := by
  unfold commaSeparated
  cases rest with
  | nil => simp
  | cons second rest =>
    rw [String.toList_intercalate, String.toList_intercalate]
    simp [List.intercalate]

theorem length_le_commaSeparated (texts : List String) (rest : List Char) :
    texts.length ≤ (commaSeparated texts ++ rest).length + 1 := by
  induction texts with
  | nil => simp
  | cons text others ih =>
    rw [commaSeparated_cons]
    cases others with
    | nil => simp
    | cons second others =>
      simp only [List.length_append, reduceCtorEq, if_false, List.length_cons] at ih ⊢
      omega

theorem readValue?_of_readNumber? {c : Char} (hc : c = '-' ∨ c.isDigit = true)
    {text rest : List Char} {x : Number} (h : readNumber? (c :: text) = some (x, rest))
    (depth : ℕ) : readValue? depth (c :: text) = some (.number x, rest) := by
  unfold readValue?
  split
  case h_7 => rw [h]; rfl
  all_goals
    rename_i heq
    obtain ⟨rfl, -⟩ := List.cons.inj heq
    exact absurd hc (by decide)

theorem readValue?_writeNumber {x : Number} (hx : x.Short) {rest : List Char}
    (hrest : Follows rest) (depth : ℕ) :
    readValue? depth ((writeNumber x).toList ++ rest) = some (.number x.oneZero, rest) := by
  obtain ⟨c, text, htext, hc⟩ := exists_writeNumber_eq_cons hx
  have hread := readNumber?_writeNumber hrest hx
  rw [htext] at hread ⊢
  exact readValue?_of_readNumber? hc hread depth

theorem word?_append (word : String) (value : Value) (rest : List Char) :
    word? word value (word.toList ++ rest) = some (value, rest) := by
  have hprefix : word.toList.isPrefixOf (word.toList ++ rest) = true :=
    List.isPrefixOf_iff_prefix.mpr (List.prefix_append ..)
  rw [word?, if_pos hprefix, ← String.length_toList, List.drop_left]

theorem readValue?_null (depth : ℕ) (rest : List Char) :
    readValue? depth ("null".toList ++ rest) = some (.null, rest) := by
  have hread : readValue? depth ("null".toList ++ rest) =
      word? "null" .null ("null".toList ++ rest) := by
    cases depth <;> rfl
  rw [hread, word?_append]

theorem readValue?_bool (depth : ℕ) (b : Bool) (rest : List Char) :
    readValue? depth ((writeScalar (.bool b)).toList ++ rest) = some (.bool b, rest) := by
  have hread : readValue? depth ((writeScalar (.bool b)).toList ++ rest) =
      word? (writeScalar (.bool b)) (.bool b) ((writeScalar (.bool b)).toList ++ rest) := by
    cases b <;> cases depth <;> rfl
  rw [hread, word?_append]

theorem readValue?_quoteString (depth : ℕ) (text : String) (rest : List Char) :
    readValue? depth ((quoteString text).toList ++ rest) = some (.string text, rest) := by
  have hread (chars : List Char) : readValue? depth ('"' :: chars) =
      (unquote? chars).map fun found => (.string (String.ofList found.1), found.2) := by
    cases depth <;> rfl
  have hunquote := unquote?_flatMap_escapeChar text.toList rest
  simp [toList_quoteString, hread, hunquote]

theorem isSpace_of_isDigit {c : Char} (hc : c = '-' ∨ c.isDigit = true) : isSpace c = false := by
  rw [← Bool.not_eq_true]
  intro hspace
  simp only [isSpace, Bool.or_eq_true, decide_eq_true_eq] at hspace
  rcases hspace with ((rfl | rfl) | rfl) | rfl <;> exact absurd hc (by decide)

theorem exists_write_eq_cons {depth : ℕ} {v : Value} (hv : v.Portable depth) :
    ∃ c rest, (write v).toList = c :: rest ∧ isSpace c = false ∧ c ≠ ']' := by
  cases hv with
  | null => exact ⟨'n', "ull".toList, by simp [write, writeScalar], rfl, by decide⟩
  | bool b =>
    cases b with
    | false => exact ⟨'f', "alse".toList, by simp [write, writeScalar], rfl, by decide⟩
    | true => exact ⟨'t', "rue".toList, by simp [write, writeScalar], rfl, by decide⟩
  | number hx =>
    obtain ⟨c, rest, htext, hc⟩ := exists_writeNumber_eq_cons hx
    refine ⟨c, rest, htext, isSpace_of_isDigit hc, ?_⟩
    rintro rfl
    exact absurd hc (by decide)
  | string text => exact ⟨'"', _, toList_quoteString text, rfl, by decide⟩
  | list hitems => exact ⟨'[', _, by simp [write]; rfl, rfl, by decide⟩
  | map hkeys hentries => exact ⟨'\x7b', _, by simp [write]; rfl, rfl, by decide⟩

theorem skipSpace_write {depth : ℕ} {v : Value} (hv : v.Portable depth) (rest : List Char) :
    skipSpace ((write v).toList ++ rest) = (write v).toList ++ rest := by
  obtain ⟨c, text, htext, hspace, -⟩ := exists_write_eq_cons hv
  rw [htext, List.cons_append, skipSpace_cons hspace]

def Reads (depth : ℕ) (v : Value) : Prop :=
  ∀ rest, Follows rest → readValue? depth ((write v).toList ++ rest) = some (v.oneZero, rest)

theorem readItems?_write {depth : ℕ} {items : List Value}
    (hitems : ∀ v ∈ items, v.Portable depth) (hread : ∀ v ∈ items, Reads depth v)
    (hne : items ≠ []) {n : ℕ} (hn : items.length ≤ n) (rest : List Char) :
    readItems? (readValue? depth) n (commaSeparated (writeItems items) ++ ']' :: rest) =
      some (oneZeroItems items, rest) := by
  induction items generalizing n with
  | nil => exact absurd rfl hne
  | cons v items ih =>
    obtain ⟨m, rfl⟩ : ∃ m, n = m + 1 := Nat.exists_eq_add_of_le' (Nat.le_trans (by simp) hn)
    simp only [List.forall_mem_cons] at hitems hread
    rw [writeItems, commaSeparated_cons, List.append_assoc, readItems?,
      skipSpace_write hitems.1]
    cases items with
    | nil =>
      simp [writeItems, hread.1 _ (.bracket rest), skipSpace_cons, isSpace, oneZeroItems]
    | cons second items =>
      have hrest := ih hitems.2 hread.2 (List.cons_ne_nil _ _) (n := m) (by simpa using hn)
      have htail : writeItems (second :: items) ≠ [] := List.cons_ne_nil _ _
      rw [if_neg htail, List.cons_append, hread.1 _ (.comma _)]
      simp [skipSpace_cons, isSpace, hrest, oneZeroItems]

theorem readEntries?_write {depth : ℕ} {entries : Table Value}
    (hentries : ∀ e ∈ entries, e.2.Portable depth) (hread : ∀ e ∈ entries, Reads depth e.2)
    (hne : entries ≠ []) {n : ℕ} (hn : entries.length ≤ n) (rest : List Char) :
    readEntries? (readValue? depth) n
        (commaSeparated (writeEntries entries) ++ '\x7d' :: rest) =
      some (oneZeroEntries entries, rest) := by
  induction entries generalizing n with
  | nil => exact absurd rfl hne
  | cons entry entries ih =>
    obtain ⟨key, v⟩ := entry
    obtain ⟨m, rfl⟩ : ∃ m, n = m + 1 := Nat.exists_eq_add_of_le' (Nat.le_trans (by simp) hn)
    simp only [List.forall_mem_cons] at hentries hread
    have htext : (quoteString key ++ ":" ++ write v).toList =
        '"' :: (key.toList.flatMap escapeChar ++ '"' :: ':' :: (write v).toList) := by
      simp [toList_quoteString]
    rw [writeEntries, commaSeparated_cons, htext, List.append_assoc, readEntries?,
      List.cons_append, skipSpace_cons rfl]
    cases entries with
    | nil =>
      simp [writeEntries, unquote?_flatMap_escapeChar, skipSpace_write hentries.1,
        hread.1 _ (.brace rest), skipSpace_cons, isSpace, oneZeroEntries]
    | cons second entries =>
      have hrest := ih hentries.2 hread.2 (List.cons_ne_nil _ _) (n := m) (by simpa using hn)
      have htail : writeEntries (second :: entries) ≠ [] := List.cons_ne_nil _ _
      rw [if_neg htail]
      simp [unquote?_flatMap_escapeChar, skipSpace_write hentries.1, hread.1 _ (.comma _),
        skipSpace_cons, isSpace, hrest, oneZeroEntries]

theorem length_writeItems (items : List Value) : (writeItems items).length = items.length := by
  induction items with
  | nil => rfl
  | cons v items ih => rw [writeItems, List.length_cons, List.length_cons, ih]

theorem length_writeEntries (entries : Table Value) :
    (writeEntries entries).length = entries.length := by
  induction entries with
  | nil => rfl
  | cons entry entries ih => rw [writeEntries, List.length_cons, List.length_cons, ih]

theorem readValue?_bracket {c : Char} (hspace : isSpace c = false) (hc : c ≠ ']') (depth : ℕ)
    (text : List Char) : readValue? (depth + 1) ('[' :: c :: text) =
      (readItems? (readValue? depth) ((c :: text).length + 1) (c :: text)).map
        fun (items, rest) => (.list items, rest) := by
  simp only [readValue?, skipSpace_cons hspace]
  split
  · rename_i heq
    exact absurd (List.cons.inj heq).1 hc
  · rfl

theorem readValue?_brace {c : Char} (hspace : isSpace c = false) (hc : c ≠ '\x7d') (depth : ℕ)
    (text : List Char) : readValue? (depth + 1) ('\x7b' :: c :: text) =
      (readEntries? (readValue? depth) ((c :: text).length + 1) (c :: text)).map
        fun (entries, rest) => (.map (Table.ofEntries entries), rest) := by
  simp only [readValue?, skipSpace_cons hspace]
  split
  · rename_i heq
    exact absurd (List.cons.inj heq).1 hc
  · rfl

theorem reads_list {depth : ℕ} {items : List Value} (hitems : ∀ v ∈ items, v.Portable depth)
    (hread : ∀ v ∈ items, Reads depth v) : Reads (depth + 1) (.list items) := by
  intro rest _
  have htext : (write (.list items)).toList ++ rest =
      '[' :: (commaSeparated (writeItems items) ++ ']' :: rest) := by
    simp [write, commaSeparated]
  rw [htext]
  rcases items with _ | ⟨v, items⟩
  · rfl
  · obtain ⟨c, text, hfirst, hspace, hend⟩ := exists_write_eq_cons (hitems v (by simp))
    have hn := length_le_commaSeparated (writeItems (v :: items)) (']' :: rest)
    rw [length_writeItems] at hn
    have hall := readItems?_write hitems hread (List.cons_ne_nil v items) hn rest
    rw [writeItems, commaSeparated_cons, hfirst] at hall ⊢
    simp only [List.cons_append] at hall ⊢
    rw [readValue?_bracket hspace hend, hall]
    rfl

theorem reads_map {depth : ℕ} {entries : Table Value} (hkeys : entries.keys.Nodup)
    (hentries : ∀ e ∈ entries, e.2.Portable depth) (hread : ∀ e ∈ entries, Reads depth e.2) :
    Reads (depth + 1) (.map entries) := by
  intro rest _
  have htext : (write (.map entries)).toList ++ rest =
      '\x7b' :: (commaSeparated (writeEntries entries) ++ '\x7d' :: rest) := by
    simp [write, commaSeparated]
  rw [htext]
  rcases entries with _ | ⟨⟨key, v⟩, entries⟩
  · rfl
  · have hn := length_le_commaSeparated (writeEntries ((key, v) :: entries)) ('\x7d' :: rest)
    rw [length_writeEntries] at hn
    have hall := readEntries?_write hentries hread (List.cons_ne_nil _ entries) hn rest
    have hdistinct : Table.ofEntries (oneZeroEntries ((key, v) :: entries)) =
        oneZeroEntries ((key, v) :: entries) :=
      Table.ofEntries_of_nodup (by rwa [keys_oneZeroEntries])
    rw [writeEntries, commaSeparated_cons, String.toList_append, String.toList_append,
      toList_quoteString] at hall ⊢
    simp only [List.cons_append] at hall ⊢
    rw [readValue?_brace rfl (by decide), hall]
    simp only [Option.map_some, hdistinct]
    rfl

theorem reads_of_portable {depth : ℕ} {v : Value} (hv : v.Portable depth) : Reads depth v := by
  induction hv with
  | null => exact fun rest _ => readValue?_null _ rest
  | bool b => exact fun rest _ => readValue?_bool _ b rest
  | number hx => exact fun rest hrest => readValue?_writeNumber hx hrest _
  | string text => exact fun rest _ => readValue?_quoteString _ text rest
  | list hitems ih => exact reads_list hitems ih
  | map hkeys hentries ih => exact reads_map hkeys hentries ih

theorem read?_write {v : Value} (hv : v.Portable 127) : read? (write v) = some v.oneZero := by
  have hread := reads_of_portable hv [] .nil
  have hskip := skipSpace_write hv []
  rw [List.append_nil] at hread hskip
  rw [read?, hskip, hread]
  rfl

end Json

open Builtin

/-- What `jsonencode` makes of a value `jsondecode` reads back: the same value, with the keys of
every map in the same order. -/
theorem json_round_trip {v : Value} (hv : v.Portable 127) (now : ℕ) (calls calls' : List Call) :
    ∃ encode decode text w, (functions now).get? "jsonencode" = some encode ∧
      (functions now).get? "jsondecode" = some decode ∧
      encode calls [v] = .ok (.string text) ∧ decode calls' [.string text] = .ok w ∧
      (v == w) = true ∧
      ∀ path entries, v.at? path = some (.map entries) →
        ∃ entries', w.at? path = some (.map entries') ∧
          Table.keys entries' = Table.keys entries := by
  have hdecode : total jsonDecode calls' [.string (Json.write v)] = .ok v.oneZero := by
    have hread : jsonDecode [.string (Json.write v)] = some v.oneZero := Json.read?_write hv
    rw [total, hread]
    rfl
  refine ⟨total jsonEncode, total jsonDecode, Json.write v, v.oneZero, rfl, rfl, rfl, hdecode,
    Value.same_oneZero hv, fun path entries hpath => ?_⟩
  refine ⟨Value.oneZeroEntries entries, ?_, Value.keys_oneZeroEntries entries⟩
  rw [Value.at?_oneZero, hpath]
  rfl

def escapedValue : Value :=
  .map [("\"\x01\n", .list [.null, .number (.finite true (0 * Number.one))]),
    ("n", .number (.finite true (2 ^ 62 * Number.one)))]

theorem json_round_trip_escaped :
    escapedValue.Portable 127 ∧ ∃ encode decode text w,
      (functions 0).get? "jsonencode" = some encode ∧
      (functions 0).get? "jsondecode" = some decode ∧
      encode [] [escapedValue] = .ok (.string text) ∧ decode [] [.string text] = .ok w ∧
      (escapedValue == w) = true := by
  have hzero : (Number.finite true (0 * Number.one)).Short :=
    .intro true (by decide) (.finite true (by decide +kernel) (by decide +kernel))
  have hlarge : (Number.finite true (2 ^ 62 * Number.one)).Short :=
    .intro true (by decide) (.finite true (by decide +kernel) (by decide +kernel))
  have hlist : (Value.list [.null, .number (.finite true (0 * Number.one))]).Portable 126 :=
    .list (List.forall_mem_cons.mpr ⟨.null, List.forall_mem_singleton.mpr (.number hzero)⟩)
  have hvalue : escapedValue.Portable 127 :=
    .map (by decide)
      (List.forall_mem_cons.mpr ⟨hlist, List.forall_mem_singleton.mpr (.number hlarge)⟩)
  obtain ⟨encode, decode, text, w, hencode, hdecode, htext, hread, hsame, -⟩ :=
    json_round_trip hvalue 0 [] []
  exact ⟨hvalue, encode, decode, text, w, hencode, hdecode, htext, hread, hsame⟩

end HclEval
