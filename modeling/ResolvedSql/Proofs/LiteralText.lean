import ResolvedSql.Proofs.BodyText
import ResolvedSql.Proofs.Constants
set_option autoImplicit false

namespace ResolvedSql

open FunctionBody

def isNumeralChar (c : Char) : Bool := c.isDigit || c = '-' || c = '.'

theorem isPlain_of_isNumeralChar {c : Char} (h : isNumeralChar c = true) : isPlain c = true := by
  have hne {d : Char} (hd : isNumeralChar d = false) : c ≠ d := by
    rintro rfl
    simp [hd] at h
  simp [isPlain, isQuote, hne (d := '?') (by decide), hne (d := '\'') (by decide),
    hne (d := '"') (by decide), hne (d := '`') (by decide)]

theorem isNumeralChar_of_isDigit {c : Char} (h : c.isDigit = true) : isNumeralChar c = true := by
  simp [isNumeralChar, h]

theorem isNumeralChar_of_mem_toString {n : Nat} {c : Char} (h : c ∈ (toString n).toList) :
    isNumeralChar c = true := by
  have htext : (toString n).toList = Nat.toDigits 10 n := by
    simp [toString, Nat.repr]
  rw [htext] at h
  exact isNumeralChar_of_isDigit (Decimal.isDigit_of_mem_digits h)

theorem toString_isPlainText (n : Nat) : IsPlainText (toString n) :=
  isPlainText_iff.2 fun _ hc => isPlain_of_isNumeralChar (isNumeralChar_of_mem_toString hc)

theorem Constant.isNumeralChar_of_mem_sign {negative : Bool} {c : Char} (h : c ∈ sign negative) :
    isNumeralChar c = true := by
  cases negative with
  | false => cases h
  | true =>
    obtain rfl := List.mem_singleton.1 h
    decide

theorem SqlType.family_isPlainText (type : SqlType) : IsPlainText type.family := by
  cases type with
  | scalar type => cases type <;> decide
  | array => exact (by decide : IsPlainText "array")
  | struct => exact (by decide : IsPlainText "struct")

namespace Literal

/-- A literal is the name of a constant, a numeral, or quoted text, in bytes after a letter. -/
theorem encode_form {v : Value} {type : SqlType} {sql : String} (h : encode v type = .ok sql) :
    sql ∈ ["NULL", "TRUE", "FALSE"] ∨ (∀ c ∈ sql.toList, isNumeralChar c = true) ∨
      ∃ lead ∈ ["", "X"], ∃ s, sql = lead ++ quote s := by
  obtain ⟨constant, hwritten, -⟩ := encode_written h
  generalize htext : sql.toList = text at hwritten
  cases hwritten with
  | null =>
    rw [String.toList_inj] at htext
    exact .inl (by simp [htext])
  | bool b =>
    rw [String.toList_inj] at htext
    cases b <;> exact .inl (by simp [htext])
  | integer negative hne hdigits =>
    refine .inr (.inl fun c hc => ?_)
    rcases List.mem_append.1 hc with hc | hc
    · exact Constant.isNumeralChar_of_mem_sign hc
    · exact isNumeralChar_of_isDigit (hdigits c hc)
  | decimal negative hwhole hfraction hdigits =>
    refine .inr (.inl fun c hc => ?_)
    simp only [List.mem_append, List.mem_cons] at hc
    rcases hc with hc | hc | rfl | hc
    · exact Constant.isNumeralChar_of_mem_sign hc
    · exact isNumeralChar_of_isDigit (hdigits c (by simp [hc]))
    · decide
    · exact isNumeralChar_of_isDigit (hdigits c (by simp [hc]))
  | @string s t hdoubled =>
    refine .inr (.inr ⟨"", by simp, String.ofList s, String.toList_inj.1 ?_⟩)
    simp [htext, hdoubled.eq_double, quote, Text.quoted]
  | @blob bs hex hhex heven hbytes =>
    refine .inr (.inr ⟨"X", by simp, String.ofList hex, String.toList_inj.1 ?_⟩)
    have hdouble := Constant.double_of_not_mem (Constant.not_mem_of_hexDigits hhex)
    simp [htext, hdouble, quote, Text.quoted]

theorem encode_text {v : Value} {type : SqlType} {sql : String} (h : encode v type = .ok sql) :
    IsPlainText sql ∨ ∃ lead s, IsPlainText lead ∧ sql = lead ++ quote s := by
  have hnames : ∀ name ∈ ["NULL", "TRUE", "FALSE"], IsPlainText name := by decide
  have hleads : ∀ lead ∈ ["", "X"], IsPlainText lead := by decide
  rcases encode_form h with hname | hnumeral | ⟨lead, hlead, s, rfl⟩
  · exact .inl (hnames sql hname)
  · exact .inl (isPlainText_iff.2 fun c hc => isPlain_of_isNumeralChar (hnumeral c hc))
  · exact .inr ⟨lead, s, hleads lead hlead, rfl⟩

end Literal
end ResolvedSql
