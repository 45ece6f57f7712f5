import ResolvedSql.Literal
import ResolvedSql.Proofs.JsonText
set_option autoImplicit false

namespace ResolvedSql

namespace Literal

def IsSign (cs : List Char) : Prop := cs = [] ∨ cs = ['+'] ∨ cs = ['-']

def AreDigits (cs : List Char) : Prop := ∀ c ∈ cs, c.isDigit = true

inductive Exponent : List Char → Prop
  | none : Exponent []
  | some {mark : Char} {sign digits : List Char} (hmark : mark = 'e' ∨ mark = 'E')
    (hsign : IsSign sign) (hne : digits ≠ []) (hdigits : AreDigits digits) :
    Exponent (mark :: (sign ++ digits))

/-- A number without its sign. A point may have digits on one side only. -/
inductive Unsigned : List Char → Prop
  | name {word : List Char}
    (h : String.ofList (word.map Char.toLower) ∈ ["inf", "infinity", "nan"]) : Unsigned word
  | whole {digits exponent : List Char} (hne : digits ≠ []) (hdigits : AreDigits digits)
    (hexponent : Exponent exponent) : Unsigned (digits ++ exponent)
  | point {digits fraction exponent : List Char} (hne : digits ++ fraction ≠ [])
    (hdigits : AreDigits digits) (hfraction : AreDigits fraction)
    (hexponent : Exponent exponent) : Unsigned (digits ++ '.' :: (fraction ++ exponent))

def NumericText (cs : List Char) : Prop :=
  ∃ sign body, IsSign sign ∧ Unsigned body ∧ cs = sign ++ body

theorem exists_sign (cs : List Char) : ∃ sign, IsSign sign ∧ cs = sign ++ afterSign cs := by
  unfold afterSign
  split
  · exact ⟨['+'], .inr (.inl rfl), rfl⟩
  · exact ⟨['-'], .inr (.inr rfl), rfl⟩
  · exact ⟨[], .inl rfl, rfl⟩

theorem afterSign_append {sign body : List Char} (hsign : IsSign sign)
    (hbody : ∀ c ∈ body.head?, c ≠ '+' ∧ c ≠ '-') : afterSign (sign ++ body) = body := by
  rcases hsign with rfl | rfl | rfl
  · cases body with
    | nil => rfl
    | cons c body =>
      obtain ⟨hplus, hminus⟩ := hbody c rfl
      rw [List.nil_append, afterSign.eq_3 _ (by simp [hplus]) (by simp [hminus])]
  · rfl
  · rfl

theorem ne_of_isDigit {c d : Char} (hc : c.isDigit = true) (hd : d.isDigit = false) : c ≠ d := by
  rintro rfl
  simp [hd] at hc

theorem AreDigits.head {digits : List Char} (h : AreDigits digits) {c : Char}
    (hc : c ∈ digits.head?) : c.isDigit = true :=
  h c (List.mem_of_mem_head? hc)

theorem isExponent_iff {cs : List Char} : isExponent cs = true ↔ Exponent cs := by
  constructor
  · intro h
    cases cs with
    | nil => exact .none
    | cons c r =>
      simp only [isExponent, Bool.and_eq_true, Bool.or_eq_true, decide_eq_true_eq,
        Bool.not_eq_true', List.isEmpty_eq_false_iff] at h
      obtain ⟨⟨hmark, hne⟩, hdigits⟩ := h
      obtain ⟨sign, hsign, hr⟩ := exists_sign r
      rw [hr]
      exact .some hmark hsign hne (List.all_eq_true.1 hdigits)
  · intro h
    cases h with
    | none => rfl
    | some hmark hsign hne hdigits =>
      have hafter := afterSign_append hsign (fun c hc =>
        ⟨ne_of_isDigit (hdigits.head hc) (by decide), ne_of_isDigit (hdigits.head hc) (by decide)⟩)
      simp only [isExponent, hafter, Bool.and_eq_true, Bool.or_eq_true, decide_eq_true_eq,
        Bool.not_eq_true', List.isEmpty_eq_false_iff]
      exact ⟨⟨hmark, hne⟩, List.all_eq_true.2 hdigits⟩

theorem Exponent.head {cs : List Char} (h : Exponent cs) :
    ∀ c ∈ cs.head?, c = 'e' ∨ c = 'E' := by
  cases h with
  | none => simp
  | some hmark => simpa using hmark

theorem Exponent.not_digit {cs : List Char} (h : Exponent cs) :
    ∀ c ∈ cs.head?, c.isDigit = false := by
  intro c hc
  rcases h.head c hc with rfl | rfl <;> decide

theorem Unsigned.head {cs : List Char} (h : Unsigned cs) :
    ∀ c ∈ cs.head?, c ≠ '+' ∧ c ≠ '-' := by
  have hdigit {c : Char} (hc : c.isDigit = true) : c ≠ '+' ∧ c ≠ '-' :=
    ⟨ne_of_isDigit hc (by decide), ne_of_isDigit hc (by decide)⟩
  intro c hc
  cases h with
  | name h =>
    have hnames : ∀ w ∈ ["inf", "infinity", "nan"], w.toList.head? ≠ some '+' ∧
        w.toList.head? ≠ some '-' := by decide
    obtain ⟨hplus, hminus⟩ := hnames _ h
    rw [String.toList_ofList, List.head?_map, hc] at hplus hminus
    exact ⟨fun h => hplus (by rw [h]; rfl), fun h => hminus (by rw [h]; rfl)⟩
  | @whole digits exponent hne hdigits hexponent =>
    cases digits with
    | nil => exact (hne rfl).elim
    | cons d digits =>
      cases hc
      exact hdigit (hdigits c (by simp))
  | @point digits fraction exponent hne hdigits hfraction hexponent =>
    cases digits with
    | nil =>
      cases hc
      decide
    | cons d digits =>
      cases hc
      exact hdigit (hdigits c (by simp))

theorem unsigned_of_isFraction {digits rest : List Char} (hdigits : AreDigits digits)
    (h : isFraction digits.length rest = true) : Unsigned (digits ++ rest) := by
  unfold isFraction at h
  split at h
  · rename_i r
    simp only [Bool.and_eq_true, decide_eq_true_eq] at h
    rw [← List.takeWhile_append_dropWhile (p := Char.isDigit) (l := r)]
    refine .point (fun hnil => ?_) hdigits (fun c hc => List.mem_takeWhile_imp hc)
      (isExponent_iff.1 h.2)
    obtain ⟨hdigits, hfraction⟩ := List.append_eq_nil_iff.1 hnil
    simp [hdigits, hfraction] at h
  · simp only [Bool.and_eq_true, decide_eq_true_eq, List.length_pos_iff] at h
    exact .whole h.1 hdigits (isExponent_iff.1 h.2)

theorem isFraction_of_exponent {digits exponent : List Char} (hne : digits ≠ [])
    (h : Exponent exponent) : isFraction digits.length exponent = true := by
  have hpoint : ∀ r, exponent ≠ '.' :: r := by
    rintro r rfl
    rcases h.head '.' rfl with h | h <;> cases h
  rw [isFraction.eq_2 _ _ hpoint, isExponent_iff.2 h]
  simp [List.length_pos_iff, hne]

theorem isFraction_of_point {digits fraction exponent : List Char} (hne : digits ++ fraction ≠ [])
    (hfraction : AreDigits fraction) (h : Exponent exponent) :
    isFraction digits.length ('.' :: (fraction ++ exponent)) = true := by
  obtain ⟨htake, hdrop⟩ := Text.span_append hfraction h.not_digit
  have hlength : 0 < digits.length + fraction.length := by
    rw [← List.length_append]
    exact List.length_pos_iff.2 hne
  simp [isFraction, htake, hdrop, isExponent_iff.2 h, hlength]

theorem isNumeric_iff {cs : List Char} : isNumeric cs = true ↔ NumericText cs := by
  simp only [isNumeric, Bool.or_eq_true, List.contains_iff_mem]
  constructor
  · obtain ⟨sign, hsign, hcs⟩ := exists_sign cs
    rintro (h | h)
    · exact ⟨sign, _, hsign, .name h, hcs⟩
    · refine ⟨sign, _, hsign, ?_, hcs⟩
      rw [← List.takeWhile_append_dropWhile (p := Char.isDigit) (l := afterSign cs)]
      exact unsigned_of_isFraction (fun c hc => List.mem_takeWhile_imp hc) h
  · rintro ⟨sign, body, hsign, hbody, rfl⟩
    rw [afterSign_append hsign hbody.head]
    cases hbody with
    | name h => exact .inl h
    | whole hne hdigits hexponent =>
      obtain ⟨htake, hdrop⟩ := Text.span_append hdigits hexponent.not_digit
      rw [htake, hdrop]
      exact .inr (isFraction_of_exponent hne hexponent)
    | @point digits fraction exponent hne hdigits hfraction hexponent =>
      have hpoint : ∀ c ∈ ('.' :: (fraction ++ exponent)).head?, c.isDigit = false := by simp
      obtain ⟨htake, hdrop⟩ := Text.span_append hdigits hpoint
      rw [htake, hdrop]
      exact .inr (isFraction_of_point hne hfraction hexponent)

end Literal
end ResolvedSql
