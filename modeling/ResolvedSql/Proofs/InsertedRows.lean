import ResolvedSql.Proofs.Run
/-!
When an insertion has SQL, and the error it ends with otherwise. The widths of the rows are not
looked at beforehand: each row is measured after the values of the rows before it were rendered, so
the first row that fails decides, and the references before it have taken their paths.
-/
set_option autoImplicit false

namespace ResolvedSql

open Text Render

namespace Node

/-- A row does not get to its text: it is not as wide as the columns, in which case none of its
values is rendered, or one of its values fails. -/
inductive RowFails (settings : Settings) (width index : Nat) (row : List Node) (s : State) :
    Error → State → Prop
  | width (h : row.length ≠ width) :
    RowFails settings width index row s (.contract (.rowWidth index row.length width)) s
  | value {e : Error} {final : State} (h : row.length = width)
    (hvalues : (Node.renderAll row).run settings s = .error e final) :
    RowFails settings width index row s e final

/-- The texts of the values of all rows, cut into rows. -/
structure RowTexts (settings : Settings) (width : Nat) (rows : List (List Node)) (s : State)
    (texts : List (List String)) (final : State) : Prop where
  width : ∀ row ∈ rows, row.length = width
  values : (Node.renderAll rows.flatten).run settings s = .ok texts.flatten final
  lengths : texts.map List.length = rows.map List.length

section
variable {settings : Settings} {width index : Nat}

theorem renderRows_cons_run_eq_ok {row : List Node} {rows : List (List Node)} {s final : State}
    {sqls : List String} :
    (Node.renderRows width index (row :: rows)).run settings s = .ok sqls final ↔
      row.length = width ∧ ∃ texts t rest, (Node.renderAll row).run settings s = .ok texts t ∧
        (Node.renderRows width (index + 1) rows).run settings t = .ok rest final ∧
        sqls = rowText texts :: rest := by
  rw [Node.renderRows]
  by_cases hwidth : row.length = width
  · simp only [hwidth, ne_eq, not_true_eq_false, if_false, true_and]
    rw [bind_run_eq_ok]
    constructor
    · rintro ⟨texts, t, hrow, h⟩
      obtain ⟨rest, u, hrest, h⟩ := bind_run_eq_ok.1 h
      obtain ⟨rfl, rfl⟩ := pure_run_eq_ok.1 h
      exact ⟨texts, t, rest, hrow, hrest, rfl⟩
    · rintro ⟨texts, t, rest, hrow, hrest, rfl⟩
      exact ⟨texts, t, hrow, bind_run_eq_ok.2 ⟨rest, final, hrest, rfl⟩⟩
  · simp only [hwidth, ne_eq, not_false_eq_true, if_true, false_and, iff_false]
    intro h
    obtain ⟨_, _, hthrow, -⟩ := bind_run_eq_ok.1 h
    exact throw_run_ne_ok hthrow

theorem renderRows_cons_run_eq_error {row : List Node} {rows : List (List Node)} {s final : State}
    {e : Error} :
    (Node.renderRows width index (row :: rows)).run settings s = .error e final ↔
      RowFails settings width index row s e final ∨
        row.length = width ∧ ∃ texts t, (Node.renderAll row).run settings s = .ok texts t ∧
          (Node.renderRows width (index + 1) rows).run settings t = .error e final := by
  rw [Node.renderRows]
  by_cases hwidth : row.length = width
  · simp only [hwidth, ne_eq, not_true_eq_false, if_false, true_and]
    rw [bind_run_eq_error]
    constructor
    · rintro (hrow | ⟨texts, t, hrow, h⟩)
      · exact .inl (.value hwidth hrow)
      · rcases bind_run_eq_error.1 h with hrest | ⟨_, _, _, h⟩
        · exact .inr ⟨texts, t, hrow, hrest⟩
        · exact (pure_run_ne_error h).elim
    · rintro (hfails | ⟨texts, t, hrow, hrest⟩)
      · cases hfails with
        | width h => exact (h hwidth).elim
        | value _ hvalues => exact .inl hvalues
      · exact .inr ⟨texts, t, hrow, bind_run_eq_error.2 (.inl hrest)⟩
  · simp only [hwidth, ne_eq, not_false_eq_true, if_true, false_and, or_false]
    rw [bind_run_eq_error]
    constructor
    · rintro (h | ⟨_, _, h, _⟩)
      · obtain ⟨rfl, rfl⟩ := throw_run_eq_error.1 h
        exact .width hwidth
      · exact (throw_run_ne_ok h).elim
    · intro hfails
      cases hfails with
      | width => exact .inl rfl
      | value h => exact (hwidth h).elim

theorem rowTexts_nil {s final : State} {texts : List (List String)} :
    RowTexts settings width [] s texts final ↔ texts = [] ∧ s = final := by
  constructor
  · rintro ⟨-, hvalues, hlengths⟩
    obtain ⟨-, rfl⟩ := pure_run_eq_ok.1 hvalues
    exact ⟨List.map_eq_nil_iff.1 hlengths, rfl⟩
  · rintro ⟨rfl, rfl⟩
    exact ⟨by simp, rfl, rfl⟩

theorem rowTexts_cons {row : List Node} {rows : List (List Node)} {s final : State}
    {texts : List (List String)} : RowTexts settings width (row :: rows) s texts final ↔
      row.length = width ∧ ∃ values t rest, (Node.renderAll row).run settings s = .ok values t ∧
        RowTexts settings width rows t rest final ∧ texts = values :: rest := by
  simp only [Node.renderAll_eq]
  constructor
  · rintro ⟨hwidth, hvalues, hlengths⟩
    rw [List.forall_mem_cons] at hwidth
    cases texts with
    | nil => cases hlengths
    | cons values rest =>
      obtain ⟨hlength, hlengths⟩ := List.cons.inj hlengths
      rw [Node.renderAll_eq] at hvalues
      obtain ⟨front, t, back, hfront, hback, happend⟩ := each_append_run_eq_ok.1 hvalues
      -- both cuts are after as many texts as the row has values
      have hcut : values.length = front.length := by rw [hlength, length_of_each_run hfront]
      obtain ⟨rfl, rfl⟩ := List.append_inj happend hcut
      rw [← Node.renderAll_eq] at hback
      exact ⟨hwidth.1, values, t, rest, hfront, ⟨hwidth.2, hback, hlengths⟩, rfl⟩
  · rintro ⟨hwidth, values, t, rest, hrow, ⟨hwidths, hvalues, hlengths⟩, rfl⟩
    refine ⟨List.forall_mem_cons.2 ⟨hwidth, hwidths⟩, ?_, ?_⟩
    · rw [Node.renderAll_eq] at hvalues ⊢
      exact each_append_run_eq_ok.2 ⟨values, t, rest.flatten, hrow, hvalues, rfl⟩
    · rw [List.map_cons, List.map_cons, hlengths, length_of_each_run hrow]

theorem renderRows_run_eq_ok {rows : List (List Node)} {s final : State} {sqls : List String} :
    (Node.renderRows width index rows).run settings s = .ok sqls final ↔
      ∃ texts, RowTexts settings width rows s texts final ∧ sqls = texts.map rowText := by
  induction rows generalizing index s sqls with
  | nil =>
    rw [Node.renderRows, pure_run_eq_ok]
    constructor
    · rintro ⟨rfl, rfl⟩
      exact ⟨[], rowTexts_nil.2 ⟨rfl, rfl⟩, rfl⟩
    · rintro ⟨texts, hnil, rfl⟩
      obtain ⟨rfl, rfl⟩ := rowTexts_nil.1 hnil
      exact ⟨rfl, rfl⟩
  | cons row rows ih =>
    rw [renderRows_cons_run_eq_ok]
    constructor
    · rintro ⟨hwidth, values, t, sqls, hrow, hrows, rfl⟩
      obtain ⟨rest, hrest, rfl⟩ := ih.1 hrows
      exact ⟨values :: rest, rowTexts_cons.2 ⟨hwidth, values, t, rest, hrow, hrest, rfl⟩, rfl⟩
    · rintro ⟨texts, hcons, rfl⟩
      obtain ⟨hwidth, values, t, rest, hrow, hrest, rfl⟩ := rowTexts_cons.1 hcons
      exact ⟨hwidth, values, t, rest.map rowText, hrow, ih.2 ⟨rest, hrest, rfl⟩, rfl⟩

/-- Rows end with the error of the first row that fails, after the values of all rows before it. -/
theorem renderRows_run_eq_error {rows : List (List Node)} {s final : State} {e : Error} :
    (Node.renderRows width index rows).run settings s = .error e final ↔
      ∃ front row back texts t, rows = front ++ row :: back ∧
        RowTexts settings width front s texts t ∧
        RowFails settings width (index + front.length) row t e final := by
  induction rows generalizing index s with
  | nil =>
    rw [Node.renderRows]
    constructor
    · intro h
      exact (pure_run_ne_error h).elim
    · rintro ⟨front, row, back, _, _, hrows, -⟩
      simp at hrows
  | cons row rows ih =>
    rw [renderRows_cons_run_eq_error]
    constructor
    · rintro (hfails | ⟨hwidth, values, t, hrow, hrows⟩)
      · exact ⟨[], row, rows, [], s, rfl, rowTexts_nil.2 ⟨rfl, rfl⟩, hfails⟩
      · obtain ⟨front, failing, back, rest, u, rfl, hrest, hfails⟩ := ih.1 hrows
        refine ⟨row :: front, failing, back, values :: rest, u, rfl,
          rowTexts_cons.2 ⟨hwidth, values, t, rest, hrow, hrest, rfl⟩, ?_⟩
        rwa [List.length_cons, ← Nat.add_assoc, Nat.add_right_comm]
    · rintro ⟨front, failing, back, texts, u, hrows, hfront, hfails⟩
      cases front with
      | nil =>
        obtain ⟨rfl, rfl⟩ := List.cons.inj hrows
        obtain ⟨-, rfl⟩ := rowTexts_nil.1 hfront
        exact .inl hfails
      | cons first front =>
        obtain ⟨rfl, rfl⟩ := List.cons.inj hrows
        obtain ⟨hwidth, values, t, rest, hrow, hrest, -⟩ := rowTexts_cons.1 hfront
        refine .inr ⟨hwidth, values, t, hrow, ih.2 ⟨front, failing, back, rest, u, rfl, hrest, ?_⟩⟩
        rwa [Nat.add_right_comm, Nat.add_assoc]

end

/-- The text after the columns of an insertion: that of a query, or those of the rows. -/
inductive SourceText (settings : Settings) (width : Nat) (s : State) :
    List (List Node) → Option Node → String → State → Prop
  | query {e : Node} {sql : String} {final : State}
    (h : e.render.run settings s = .ok sql final) :
    SourceText settings width s [] (some e) sql final
  | rows {rows : List (List Node)} {texts : List (List String)} {final : State} (hrows : rows ≠ [])
    (h : RowTexts settings width rows s texts final) :
    SourceText settings width s rows none
      ("VALUES " ++ commas (texts.map fun values => "(" ++ commas values ++ ")")) final

/-- There is no such text. Whether there is one source is found before anything is rendered, and a
row is looked at after the values of the rows before it. -/
inductive SourceFails (settings : Settings) (width : Nat) (s : State) :
    List (List Node) → Option Node → Error → State → Prop
  | both {rows : List (List Node)} {e : Node} (hrows : rows ≠ []) :
    SourceFails settings width s rows (some e) (.contract .rowsAndQuery) s
  | neither : SourceFails settings width s [] none (.contract .noRowsNorQuery) s
  | query {e : Node} {error : Error} {final : State}
    (h : e.render.run settings s = .error error final) :
    SourceFails settings width s [] (some e) error final
  | row {rows front back : List (List Node)} {row : List Node} {texts : List (List String)}
    {t : State} {e : Error} {final : State} (hrows : rows = front ++ row :: back)
    (hfront : RowTexts settings width front s texts t)
    (hrow : RowFails settings width front.length row t e final) :
    SourceFails settings width s rows none e final

/-- Renders what follows the columns of an insertion. -/
def renderSource (width : Nat) (rows : List (List Node)) : Option Node → Render String
  | some e => if rows.isEmpty then e.render else throw (.contract .rowsAndQuery)
  | none =>
    if rows.isEmpty then throw (.contract .noRowsNorQuery)
    else do return "VALUES " ++ commas (← Node.renderRows width 0 rows)

theorem insertStmt_render (table : String) (columns : List Column) (rows : List (List Node))
    (query : Option Node) : (insertStmt table columns rows query).render = (do
      let name ← nextName
      let source ← renderSource columns.length rows query
      return insertText name columns source) := by
  rw [Node.render.eq_def]
  simp only
  congr 1
  funext name settings s
  cases query with
  | some e =>
    cases rows with
    | nil => rfl
    | cons row rows => rfl
  | none =>
    cases rows with
    | nil => rfl
    | cons row rows =>
      simp only [renderSource, List.isEmpty_cons, Bool.false_eq_true, if_false, bind_apply]
      cases Node.renderRows columns.length 0 (row :: rows) settings s <;> rfl

section
variable {settings : Settings} {width : Nat} {rows : List (List Node)} {query : Option Node}
  {s final : State}

theorem renderSource_run_eq_ok {sql : String} :
    (renderSource width rows query).run settings s = .ok sql final ↔
      SourceText settings width s rows query sql final := by
  cases query with
  | some e =>
    cases rows with
    | nil =>
      constructor
      · exact .query
      · intro h
        cases h with
        | query h => exact h
    | cons row rows =>
      constructor
      · intro h
        exact (throw_run_ne_ok h).elim
      · intro h
        cases h
  | none =>
    by_cases hrows : rows = []
    · subst hrows
      constructor
      · intro h
        exact (throw_run_ne_ok h).elim
      · intro h
        cases h with
        | rows h => exact (h rfl).elim
    · rw [renderSource, if_neg (by simpa using hrows), bind_run_eq_ok]
      constructor
      · rintro ⟨sqls, t, hsqls, h⟩
        obtain ⟨rfl, rfl⟩ := pure_run_eq_ok.1 h
        obtain ⟨texts, htexts, rfl⟩ := renderRows_run_eq_ok.1 hsqls
        exact .rows hrows htexts
      · intro h
        cases h with
        | rows _ h => exact ⟨_, final, renderRows_run_eq_ok.2 ⟨_, h, rfl⟩, rfl⟩

theorem renderSource_run_eq_error {e : Error} :
    (renderSource width rows query).run settings s = .error e final ↔
      SourceFails settings width s rows query e final := by
  cases query with
  | some q =>
    by_cases hrows : rows = []
    · subst hrows
      constructor
      · exact .query
      · intro h
        cases h with
        | both h => exact (h rfl).elim
        | query h => exact h
    · rw [renderSource, if_neg (by simpa using hrows), throw_run_eq_error]
      constructor
      · rintro ⟨rfl, rfl⟩
        exact .both hrows
      · intro h
        cases h with
        | both => exact ⟨rfl, rfl⟩
        | query => exact (hrows rfl).elim
  | none =>
    by_cases hrows : rows = []
    · subst hrows
      rw [renderSource, if_pos List.isEmpty_nil, throw_run_eq_error]
      constructor
      · rintro ⟨rfl, rfl⟩
        exact .neither
      · intro h
        cases h with
        | neither => exact ⟨rfl, rfl⟩
        | row hrows => simp at hrows
    · rw [renderSource, if_neg (by simpa using hrows), bind_run_eq_error, renderRows_run_eq_error]
      constructor
      · rintro (⟨front, row, back, texts, t, rfl, hfront, hrow⟩ | ⟨_, _, _, h⟩)
        · rw [Nat.zero_add] at hrow
          exact .row rfl hfront hrow
        · exact (pure_run_ne_error h).elim
      · intro h
        cases h with
        | neither => exact (hrows rfl).elim
        | row hcut hfront hrow =>
          rw [← Nat.zero_add (List.length _)] at hrow
          exact .inl ⟨_, _, _, _, _, hcut, hfront, hrow⟩

end

/-- An insertion has SQL exactly if there is a path for the table, there are either rows or a query,
all rows are as wide as the columns, and the values of the rows one after the other or the query
have texts from there on. Otherwise it ends with the first of these errors: no path for the table,
two sources or none, and then that of the query or of the first row that fails. -/
theorem insertStmt_outcome (table : String) (columns : List Column) (rows : List (List Node))
    (query : Option Node) (settings : Settings) (s : State) :
    (∀ sql final, (insertStmt table columns rows query).render.run settings s = .ok sql final ↔
      ∃ name t source, s.Names name t ∧
        SourceText settings columns.length t rows query source final ∧
        sql = "INSERT INTO " ++ quoteName name ++ " (" ++
          commas (columns.map fun c => quoteName c.name) ++ ") " ++ source) ∧
    ∀ e final, (insertStmt table columns rows query).render.run settings s = .error e final ↔
      (s.cursor.paths.length ≤ s.cursor.index ∧
        e = .namePathsExhausted s.cursor.index s.cursor.paths.length ∧ final = s) ∨
      ∃ name t, s.Names name t ∧ SourceFails settings columns.length t rows query e final := by
  rw [insertStmt_render]
  constructor
  · intro sql final
    rw [bind_run_eq_ok]
    constructor
    · rintro ⟨name, t, hname, h⟩
      obtain ⟨source, u, hsource, h⟩ := bind_run_eq_ok.1 h
      obtain ⟨rfl, rfl⟩ := pure_run_eq_ok.1 h
      exact ⟨name, t, source, nextName_run_eq_ok.1 hname, renderSource_run_eq_ok.1 hsource, rfl⟩
    · rintro ⟨name, t, source, hname, hsource, rfl⟩
      exact ⟨name, t, nextName_run_eq_ok.2 hname,
        bind_run_eq_ok.2 ⟨source, final, renderSource_run_eq_ok.2 hsource, rfl⟩⟩
  · intro e final
    rw [bind_run_eq_error, nextName_run_eq_error]
    refine or_congr Iff.rfl ?_
    constructor
    · rintro ⟨name, t, hname, h⟩
      rcases bind_run_eq_error.1 h with hsource | ⟨_, _, _, h⟩
      · exact ⟨name, t, nextName_run_eq_ok.1 hname, renderSource_run_eq_error.1 hsource⟩
      · exact (pure_run_ne_error h).elim
    · rintro ⟨name, t, hname, hsource⟩
      exact ⟨name, t, nextName_run_eq_ok.2 hname,
        bind_run_eq_error.2 (.inl (renderSource_run_eq_error.2 hsource))⟩

/-- The first row lacks a path for its function, and the second row is too narrow. -/
example : (insertStmt "t" [⟨"x", "t", .scalar .int64⟩] [[.call "f" [] (.scalar .int64)], []]
    none).render.run {} { cursor := .start [] [["t"]] } =
    .error (.namePathsExhausted 1 1)
      { cursor := ⟨[], [["t"]], 1, by decide⟩, log := [.nameResolved 0 "t"] } := by rfl

end Node
end ResolvedSql
