set_option autoImplicit false

namespace ResolvedSql.Text

def before : List Char → List Char → Bool
  | _, [] => false
  | [], _ :: _ => true
  | c :: r, d :: s => decide (c.toNat < d.toNat) || (decide (c = d) && before r s)

def precedes (a b : String) : Bool := before a.toList b.toList

theorem before_of_not_before (a b : List Char) (h : before a b = false) (hne : a ≠ b) :
    before b a = true := by
  induction a generalizing b with
  | nil =>
    cases b with
    | nil => exact absurd rfl hne
    | cons d s => simp [before] at h
  | cons c r ih =>
    cases b with
    | nil => rfl
    | cons d s =>
      simp only [before, Bool.or_eq_false_iff, decide_eq_false_iff_not, Nat.not_lt,
        Bool.and_eq_false_iff] at h
      simp only [before, Bool.or_eq_true, decide_eq_true_eq, Bool.and_eq_true]
      by_cases hcd : c = d
      · subst hcd
        have hr : before r s = false := by simpa using h.2
        exact Or.inr ⟨rfl, ih s hr (fun hrs => hne (by rw [hrs]))⟩
      · have hn : c.toNat ≠ d.toNat := fun hn => hcd (Char.toNat_inj.1 hn)
        exact Or.inl (by omega)

theorem precedes_of_not_precedes {a b : String} (h : precedes a b = false) (hne : a ≠ b) :
    precedes b a = true :=
  before_of_not_before a.toList b.toList h (fun hl => hne (String.toList_inj.1 hl))

end ResolvedSql.Text
