import ResolvedSql.NamePath
set_option autoImplicit false

namespace ResolvedSql.Text

variable {q : Char}

theorem undouble_double (s : List Char) {r : List Char} (hr : r.head? ≠ some q) :
    undouble q (double q s ++ q :: r) = some (s, r) := by
  induction s with
  | nil =>
    cases r with
    | nil => simp [double, undouble]
    | cons d r =>
      have hd : d ≠ q := fun h => hr (by rw [h]; rfl)
      simp [double, undouble, hd]
  | cons c s ih =>
    by_cases hc : c = q
    · subst hc
      simp [double, undouble, ih]
    · cases hrest : double q s ++ q :: r with
      | nil => simp at hrest
      | cons d rest =>
        have hdouble : double q (c :: s) ++ q :: r = c :: d :: rest := by
          simp [double, hc, ← hrest]
        rw [hrest] at ih
        rw [hdouble]
        simp [undouble, hc, ih]

theorem unquote_quoted (s : String) {r : List Char} (hr : r.head? ≠ some q) :
    unquote q ((quoted q s).toList ++ r) = some (s.toList, r) := by
  simp [quoted, unquote, undouble_double s.toList hr]

theorem double_injective {s t : List Char} (h : double q s = double q t) : s = t := by
  have hs := undouble_double (q := q) s (r := []) (by simp)
  have ht := undouble_double (q := q) t (r := []) (by simp)
  rw [h, ht] at hs
  simpa using hs.symm

theorem quoted_injective {s t : String} (h : quoted q s = quoted q t) : s = t := by
  have hlist := congrArg String.toList h
  simp only [quoted, String.toList_ofList, List.cons.injEq, true_and] at hlist
  exact String.toList_inj.1 (double_injective (List.append_cancel_right hlist))

theorem count_double (s : List Char) : (double q s).count q = 2 * s.count q := by
  induction s with
  | nil => rfl
  | cons c s ih =>
    by_cases hc : c = q
    · subst hc
      simp [double, ih]
      omega
    · simp [double, hc, ih]

theorem getLast?_ne_of_cons {c : Char} {y : List Char} (h : (c :: y).getLast? ≠ some q) :
    y.getLast? ≠ some q := by
  cases y with
  | nil => simp
  | cons d y => simpa using h

/-- Where a doubled text is cut after a character that is no quote, the quotes before it are in
pairs. -/
theorem count_even_of_double_eq {s y z : List Char} (h : double q s = y ++ z)
    (hy : y.getLast? ≠ some q) : y.count q % 2 = 0 := by
  induction s generalizing y with
  | nil =>
    obtain ⟨rfl, -⟩ := List.append_eq_nil_iff.1 h.symm
    rfl
  | cons c s ih =>
    by_cases hc : c = q
    · subst hc
      simp only [double, if_true] at h
      cases y with
      | nil => rfl
      | cons d y =>
        rw [List.cons_append, List.cons.injEq] at h
        obtain ⟨rfl, h⟩ := h
        cases y with
        | nil => simp at hy
        | cons e y =>
          rw [List.cons_append, List.cons.injEq] at h
          obtain ⟨rfl, h⟩ := h
          have hrest := ih h (getLast?_ne_of_cons (getLast?_ne_of_cons hy))
          simp only [List.count_cons_self]
          omega
    · simp only [double, hc, if_false] at h
      cases y with
      | nil => rfl
      | cons d y =>
        rw [List.cons_append, List.cons.injEq] at h
        obtain ⟨rfl, h⟩ := h
        have hrest := ih h (getLast?_ne_of_cons hy)
        rwa [List.count_cons_of_ne hc]

theorem eq_nil_of_quoted_eq_append {s t : String} {x : List Char}
    (h : (quoted q s).toList = x ++ (quoted q t).toList) (hx : x.getLast? ≠ some q) : x = [] := by
  cases x with
  | nil => rfl
  | cons d y =>
    simp only [quoted, String.toList_ofList, List.cons_append, List.cons.injEq] at h
    obtain ⟨rfl, h⟩ := h
    have hdouble : double q s.toList = y ++ q :: double q t.toList := by
      rw [← List.append_cancel_right_eq _ [q], h]
      simp
    have hcount := congrArg (List.count q) hdouble
    simp only [List.count_append, List.count_cons_self, count_double] at hcount
    have heven := count_even_of_double_eq hdouble (getLast?_ne_of_cons hx)
    omega

/-- A quoted text after a character that is no quote is known from the end of the text. -/
theorem append_quoted_injective {a b : List Char} {s t : String} (ha : a.getLast? ≠ some q)
    (hb : b.getLast? ≠ some q) (h : a ++ (quoted q s).toList = b ++ (quoted q t).toList) :
    a = b ∧ s = t := by
  have hmore {a b x : List Char} (hb : b.getLast? ≠ some q) (hx : b = a ++ x) :
      x.getLast? ≠ some q := by
    intro hlast
    rw [hx, List.getLast?_append, hlast] at hb
    exact hb rfl
  rcases List.append_eq_append_iff.1 h with ⟨x, hx, hs⟩ | ⟨x, hx, hs⟩
  · obtain rfl := eq_nil_of_quoted_eq_append hs (hmore hb hx)
    rw [List.append_nil] at hx
    rw [List.nil_append] at hs
    exact ⟨hx.symm, quoted_injective (String.toList_inj.1 hs)⟩
  · obtain rfl := eq_nil_of_quoted_eq_append hs (hmore ha hx)
    rw [List.append_nil] at hx
    rw [List.nil_append] at hs
    exact ⟨hx, (quoted_injective (String.toList_inj.1 hs)).symm⟩

end ResolvedSql.Text
