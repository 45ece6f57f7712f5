import ResolvedSql.Proofs.EntryPoints
import ResolvedSql.Proofs.FragmentSurface
/-!
Which entry points can be called by their names without quotes. What is put behind the prefix never
spoils a name, so the prefix decides. A configuration is checked for the characters of its prefix
but not for the first of them, so a prefix that starts with a digit is accepted, and no function can
be called under it.
-/
set_option autoImplicit false

namespace ResolvedSql

namespace Text

/-- A letter or an underscore, and behind it letters, digits and underscores. -/
def isBareName (s : String) : Bool :=
  match s.toList with
  | [] => false
  | c :: r => (c.isAlpha || c = '_') && r.all fun d => d.isAlpha || d.isDigit || d = '_'

def startsWithDigit (s : String) : Bool := s.toList.head?.any Char.isDigit

/-- What stands before the first parenthesis. -/
def calledName (sql : String) : String := String.ofList (sql.toList.takeWhile fun c => c ≠ '(')

theorem isDigit_eq_false_of_isAlpha {c : Char} (h : c.isAlpha = true) : c.isDigit = false := by
  refine Bool.eq_false_iff.2 fun hdigit => ?_
  have halpha : (decide (c.val ≥ 'A'.val ∧ c.val ≤ 'Z'.val) ||
      (decide (c.val ≥ 'a'.val) && decide (c.val ≤ 'z'.val))) = true := h
  have hdigit : (decide (c.val ≥ '0'.val) && decide (c.val ≤ '9'.val)) = true := hdigit
  simp only [Bool.or_eq_true, Bool.and_eq_true, decide_eq_true_eq, ge_iff_le,
    UInt32.le_iff_toNat_le] at halpha hdigit
  have hA : 'A'.val.toNat = 65 := rfl
  have ha : 'a'.val.toNat = 97 := rfl
  have h9 : '9'.val.toNat = 57 := rfl
  omega

/-- The characters of a prefix that is accepted make a name, unless the first is a digit. -/
theorem isBareName_of_isIdentifier {s : String} (h : Config.isIdentifier s = true) :
    isBareName s = !startsWithDigit s := by
  unfold Config.isIdentifier at h
  unfold isBareName startsWithDigit
  cases hs : s.toList with
  | nil => simp [hs] at h
  | cons c r =>
    simp only [hs, List.all_cons, Bool.and_eq_true] at h
    have hrest : (r.all fun d => d.isAlpha || d.isDigit || d = '_') = true := h.2.2
    have hfirst : (c.isAlpha || c.isDigit || c = '_') = true := h.2.1
    simp only [hrest, Bool.and_true, List.head?_cons, Option.any_some]
    cases halpha : c.isAlpha with
    | true => simp [isDigit_eq_false_of_isAlpha halpha]
    | false =>
      by_cases hunderscore : c = '_'
      · subst hunderscore
        rfl
      · have hdigit : c.isDigit = true := by simpa [halpha, hunderscore] using hfirst
        simp [hunderscore, hdigit]

theorem isBareName_append {s t : String} (hs : s ≠ "")
    (ht : t.toList.all Config.isIdentifierChar = true) : isBareName (s ++ t) = isBareName s := by
  unfold isBareName
  cases hlist : s.toList with
  | nil => exact (hs (String.toList_inj.1 hlist)).elim
  | cons c r =>
    have ht : (t.toList.all fun d => d.isAlpha || d.isDigit || d = '_') = true := ht
    simp [hlist, ht]

theorem calledName_call {name : String} (h : name.toList.all Config.isIdentifierChar = true)
    (inside : String) : calledName (name ++ "(" ++ inside ++ ")") = name := by
  have hall : ∀ c ∈ name.toList, decide (c ≠ '(') = true := by
    intro c hc
    have hc := List.all_eq_true.1 h c hc
    simp only [decide_eq_true_eq]
    rintro rfl
    revert hc
    decide
  have htext : (name ++ "(" ++ inside ++ ")").toList =
      name.toList ++ '(' :: (inside.toList ++ [')']) := by simp
  unfold calledName
  rw [htext, List.takeWhile_append_of_pos hall]
  simp

end Text

open Text

theorem entryPoint_eq_append (lead name : String) (type : SqlType) :
    entryPoint lead name type = lead ++ ("_" ++ name ++ "_" ++ type.family) :=
  String.toList_inj.1 (by simp [entryPoint])

theorem behindPrefix_isIdentifier {name : String}
    (h : name.toList.all Config.isIdentifierChar = true) (type : SqlType) :
    ("_" ++ name ++ "_" ++ type.family).toList.all Config.isIdentifierChar = true := by
  have hmark : Config.isIdentifierChar '_' = true := by decide
  simp [h, hmark, type.family_isIdentifier]

theorem entryPoint_isIdentifier {lead name : String} (hlead : Config.isIdentifier lead = true)
    (h : name.toList.all Config.isIdentifierChar = true) (type : SqlType) :
    (entryPoint lead name type).toList.all Config.isIdentifierChar = true := by
  rw [entryPoint_eq_append, String.toList_append, List.all_append,
    (Bool.and_eq_true_iff.1 hlead).2, behindPrefix_isIdentifier h]
  rfl

theorem entryPoint_isBareName {lead name : String} (hlead : Config.isIdentifier lead = true)
    (h : name.toList.all Config.isIdentifierChar = true) (type : SqlType) :
    isBareName (entryPoint lead name type) = !startsWithDigit lead := by
  have hne : lead ≠ "" := by
    rintro rfl
    simp [Config.isIdentifier] at hlead
  rw [entryPoint_eq_append, isBareName_append hne (behindPrefix_isIdentifier h type),
    isBareName_of_isIdentifier hlead]

namespace Catalog

theorem name_isIdentifier : ∀ c ∈ [scalar, aggregate, window], ∀ name ∈ c.names,
    name.toList.all Config.isIdentifierChar = true := by decide +kernel

theorem qualified_isIdentifier {c : Catalog} {name : String} (h : name ∈ c.names) :
    (c.qualified name).toList.all Config.isIdentifierChar = true := by
  have hname := name_isIdentifier c (by cases c <;> simp) name h
  cases c with
  | window =>
    have hword : "window_".toList.all Config.isIdentifierChar = true := by decide
    rw [qualified, String.toList_append, List.all_append, hword, hname]
    rfl
  | scalar | aggregate => exact hname

theorem helper_isIdentifier : ∀ name ∈ helpers,
    name.toList.all Config.isIdentifierChar = true := by decide +kernel

end Catalog

theorem Render.IsHelperCall.isBareName_calledName {lead sql : String} (h : IsHelperCall lead sql)
    (hlead : Config.isIdentifier lead = true) :
    isBareName (calledName sql) = !startsWithDigit lead := by
  obtain ⟨name, hname, type, inside, rfl⟩ := h
  have hchars := Catalog.helper_isIdentifier name hname
  rw [calledName_call (entryPoint_isIdentifier hlead hchars type),
    entryPoint_isBareName hlead hchars]

namespace Config

/-- Under a configuration that is accepted, the name of every builtin and of every helper that the
translation calls on its own can be called without quotes exactly if the prefix does not start with
a digit. -/
theorem validated_names_callable (c : Config) (h : c.validate = .ok ()) :
    (∀ (catalog : Catalog) (type : SqlType), ∀ name ∈ catalog.names,
      (isBareName (catalog.mangle c.functionPrefix name type) = true ↔
        startsWithDigit c.functionPrefix = false)) ∧
    (∀ sql, Render.IsHelperCall c.functionPrefix sql →
      (isBareName (calledName sql) = true ↔ startsWithDigit c.functionPrefix = false)) ∧
    ∀ settings : Settings, settings.config = c →
      Render.CallsHelpers settings c.functionPrefix := by
  have hlead := isIdentifier_of_validate h
  refine ⟨fun catalog type name hname => ?_, fun sql hsql => ?_, ?_⟩
  · rw [Catalog.mangle_eq_entryPoint,
      entryPoint_isBareName hlead (Catalog.qualified_isIdentifier hname)]
    simp
  · rw [hsql.isBareName_calledName hlead]
    simp
  · rintro settings rfl
    exact Render.callsHelpers settings

theorem numberedPrefix_callable :
    isBareName (Catalog.window.mangle "v2" "row_number" (.scalar .int64)) = true ∧
      isBareName (calledName (Render.optionCall "v2" "window_rowid" ["`(`"])) = true := by
  obtain ⟨hmangle, hhelper, -⟩ := validated_names_callable { functionPrefix := "v2" } rfl
  refine ⟨(hmangle _ _ _ (by decide +kernel)).2 rfl, (hhelper _ ?_).2 rfl⟩
  exact Render.optionCall_isHelperCall _ (by decide) _

/-- A prefix that starts with a digit is accepted, and its functions cannot be called. -/
theorem digitPrefix_not_callable :
    ({ functionPrefix := "1x" } : Config).validate = .ok () ∧
      "abs" ∈ Catalog.scalar.names ∧
      isBareName (Catalog.scalar.mangle "1x" "abs" (.scalar .int64)) = false ∧
      isBareName (calledName (Render.optionCall "1x" "distinct" [])) = false := by
  decide +kernel

end Config
end ResolvedSql
