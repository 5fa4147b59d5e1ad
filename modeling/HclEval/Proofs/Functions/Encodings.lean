import HclEval.Proofs.Functions.Basic
import HclEval.Proofs.Text.Base64
import HclEval.Proofs.Text.Utf8
import Mathlib.Data.String.Basic

/-!
Base64 of texts. Two functions encode and two decode. One of the decoders fails for what is no
base64 and repairs what is no UTF-8, the other answers `null` to both; but what the strict one reads
is exactly what is encoded, and there all of them agree.
-/
namespace HclEval.Builtin

open Text

def NamesUtf8 (charset : String) : Prop :=
  ∃ name ∈ ["utf-8", "utf8"], charset.toList.map Char.toLower = name.toList

theorem isUtf8_iff (charset : String) : isUtf8 charset = true ↔ NamesUtf8 charset := by
  simp only [isUtf8, NamesUtf8, Bool.or_eq_true, beq_iff_eq, String.ofList_eq, List.mem_cons,
    List.not_mem_nil, or_false, exists_eq_or_imp, exists_eq_left]

theorem decode?_toBase64 (value : String) :
    Base64.decode? (toBase64 value).toList = some (Utf8.encode value.toList) := by
  rw [toBase64, String.toList_ofList, Base64.decode?_encode]

theorem eq_toBase64_iff (encoded value : String) :
    encoded = toBase64 value ↔ encoded.toList = Base64.encode (Utf8.encode value.toList) := by
  rw [toBase64, ← String.toList_inj, String.toList_ofList]

theorem textDecodeBase64_eq_some_iff (encoded charset value : String) :
    textDecodeBase64 [.string encoded, .string charset] = some (.string value) ↔
      NamesUtf8 charset ∧ encoded = toBase64 value := by
  simp only [textDecodeBase64, stringAt?, Value.string?, List.getElem?_cons_zero,
    List.getElem?_cons_succ, Option.bind_eq_bind, Option.bind_some, eq_toBase64_iff, ← isUtf8_iff]
  split
  case isTrue hcharset =>
    simp only [Option.bind_eq_some_iff, Base64.decode?_eq_some_iff, Utf8.decode?_eq_some_iff,
      Option.some.injEq, Value.string.injEq, String.ofList_eq, hcharset, true_and, exists_eq_right]
  case isFalse hcharset => simp only [reduceCtorEq, hcharset, false_and]

theorem textDecodeBase64_of_decode?_eq_none {encoded : String}
    (h : Base64.decode? encoded.toList = none) (charset : String) :
    textDecodeBase64 [.string encoded, .string charset] = none := by
  simp only [textDecodeBase64, stringAt?, Value.string?, List.getElem?_cons_zero,
    List.getElem?_cons_succ, Option.bind_eq_bind, Option.bind_some, h, Option.bind_none, ite_self]

theorem answers_base64Encode (value : String) :
    Answers "base64encode" [.string value] (.ok (.string (toBase64 value))) :=
  answers_total (f := base64Encode) (fun _ => rfl) _

theorem answers_textEncodeBase64 (value : String) {charset : String} (h : NamesUtf8 charset) :
    Answers "textencodebase64" [.string value, .string charset]
      (.ok (.string (toBase64 value))) := by
  have hanswer : Answers "textencodebase64" [.string value, .string charset]
      (.ok (Value.ofOption (if isUtf8 charset then some (.string (toBase64 value)) else none))) :=
    answers_total (f := textEncodeBase64) (fun _ => rfl) _
  rwa [if_pos ((isUtf8_iff charset).mpr h)] at hanswer

theorem answers_textDecodeBase64 (encoded charset : String) :
    Answers "textdecodebase64" [.string encoded, .string charset]
      (.ok (Value.ofOption (textDecodeBase64 [.string encoded, .string charset]))) :=
  answers_total (fun _ => rfl) _

theorem answers_base64Decode {encoded : String} {bytes : List UInt8}
    (h : Base64.decode? encoded.toList = some bytes) :
    Answers "base64decode" [.string encoded] (.ok (text (Utf8.decodeLossy bytes))) := by
  have hresult (before : List Call) : base64Decode before [.string encoded] =
      .ok (text (Utf8.decodeLossy bytes)) := by
    simp only [base64Decode, stringAt?, Value.string?, List.getElem?_cons_zero, Option.bind_some, h,
      text]
  exact fun _ before => ⟨base64Decode, rfl, hresult before⟩

theorem answers_base64Decode_error {encoded : String}
    (h : Base64.decode? encoded.toList = none) :
    Answers "base64decode" [.string encoded]
      (.error "base64decode: input is not valid base64") := by
  have hresult (before : List Call) : base64Decode before [.string encoded] =
      .error "base64decode: input is not valid base64" := by
    simp only [base64Decode, stringAt?, Value.string?, List.getElem?_cons_zero, Option.bind_some, h]
  exact fun _ before => ⟨base64Decode, rfl, hresult before⟩

theorem answers_base64Decode_toBase64 (value : String) :
    Answers "base64decode" [.string (toBase64 value)] (.ok (.string value)) := by
  have hanswer := answers_base64Decode (decode?_toBase64 value)
  rwa [Utf8.decodeLossy_encode, text, String.ofList_toList] at hanswer

/-- Two functions that take a charset and two that do not encode and decode texts alike. For every
text, and for UTF-8 by any of its names, both encoders give the same, and both decoders give the
text back. Whatever the strict decoder reads the other one reads as well, and it is what the text
is encoded as; where the other one fails, the strict decoder answers `null`. -/
theorem base64_functions_agree :
    (∀ value charset charset' : String, NamesUtf8 charset → NamesUtf8 charset' →
      ∃ encoded : String,
        Answers "base64encode" [.string value] (.ok (.string encoded)) ∧
        Answers "textencodebase64" [.string value, .string charset] (.ok (.string encoded)) ∧
        Answers "base64decode" [.string encoded] (.ok (.string value)) ∧
        Answers "textdecodebase64" [.string encoded, .string charset'] (.ok (.string value))) ∧
    ∀ encoded charset : String,
      (∀ value : String,
        Answers "textdecodebase64" [.string encoded, .string charset] (.ok (.string value)) →
          Answers "base64decode" [.string encoded] (.ok (.string value)) ∧
            Answers "base64encode" [.string value] (.ok (.string encoded))) ∧
      ∀ cause : String, Answers "base64decode" [.string encoded] (.error cause) →
        Answers "textdecodebase64" [.string encoded, .string charset] (.ok .null) := by
  refine ⟨fun value charset charset' hcharset hcharset' => ?alike, fun encoded charset =>
    ⟨fun value hvalue => ?strict, fun cause hcause => ?null⟩⟩
  case alike =>
    have hread := answers_textDecodeBase64 (toBase64 value) charset'
    rw [(textDecodeBase64_eq_some_iff _ charset' value).mpr ⟨hcharset', rfl⟩] at hread
    exact ⟨toBase64 value, answers_base64Encode value, answers_textEncodeBase64 value hcharset,
      answers_base64Decode_toBase64 value, hread⟩
  case strict =>
    have hresult := Except.ok.inj ((answers_textDecodeBase64 encoded charset).unique hvalue)
    have hread : textDecodeBase64 [.string encoded, .string charset] = some (.string value) := by
      cases h : textDecodeBase64 [.string encoded, .string charset] <;> rw [h] at hresult
      · cases hresult
      · exact congrArg some hresult
    obtain ⟨-, rfl⟩ := (textDecodeBase64_eq_some_iff encoded charset value).mp hread
    exact ⟨answers_base64Decode_toBase64 value, answers_base64Encode value⟩
  case null =>
    cases h : Base64.decode? encoded.toList with
    | none =>
      have hread := answers_textDecodeBase64 encoded charset
      rwa [textDecodeBase64_of_decode?_eq_none h] at hread
    | some bytes => cases (answers_base64Decode h).unique hcause

theorem base64_functions_agree_accented :
    NamesUtf8 "UTF-8" ∧ NamesUtf8 "Utf8" ∧
      Answers "base64encode" [.string "héllo"] (.ok (.string "aMOpbGxv")) ∧
      Answers "textdecodebase64" [.string "aMOpbGxv", .string "Utf8"] (.ok (.string "héllo")) ∧
      Answers "base64decode" [.string "aMOpbGxv"] (.ok (.string "héllo")) ∧
      ∃ cause, Answers "base64decode" [.string "not base64!"] (.error cause) ∧
        Answers "textdecodebase64" [.string "not base64!", .string "UTF-8"] (.ok .null) := by
  have hcharset : NamesUtf8 "UTF-8" := ⟨"utf-8", by decide, by decide⟩
  have hcharset' : NamesUtf8 "Utf8" := ⟨"utf8", by decide, by decide⟩
  have hbytes : toBase64 "héllo" = "aMOpbGxv" := by decide +kernel
  have hinvalid : Base64.decode? "not base64!".toList = none := by decide
  obtain ⟨encoded, hencode, -, -, hread⟩ :=
    base64_functions_agree.1 "héllo" "UTF-8" "Utf8" hcharset hcharset'
  have hencoded := Except.ok.inj (hencode.unique (answers_base64Encode "héllo"))
  rw [hbytes] at hencoded
  obtain rfl := Value.string.inj hencoded
  have hfails := answers_base64Decode_error hinvalid
  exact ⟨hcharset, hcharset', hencode, hread,
    ((base64_functions_agree.2 "aMOpbGxv" "Utf8").1 "héllo" hread).1, _, hfails,
    (base64_functions_agree.2 "not base64!" "UTF-8").2 _ hfails⟩

end HclEval.Builtin
