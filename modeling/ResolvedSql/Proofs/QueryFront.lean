import ResolvedSql.Proofs.FragmentSurface
import ResolvedSql.Proofs.Parts
import ResolvedSql.Proofs.Run
/-!
The front of a scan. Grouping wraps its input if the text of the input starts with `SELECT`. Where
only scans are read as scans, nothing but a projection brings that word to the front of a text, so
the text decides as the tree does: no name and no literal is ever taken for a query.
-/
set_option autoImplicit false

namespace ResolvedSql

open Text Render

namespace Node

/-- What rows can be read from: a scan, or a whole query. -/
def isSource : Node → Bool
  | .singleRow | .tableScan _ _ | .arrayScan _ _ _ | .filterScan _ _ | .projectScan _ _ _
  | .aggregateScan _ _ _ _ | .setOperation _ _ | .orderByScan _ _ | .limitScan _ _ _
  | .withScan _ _ _ | .withRef _ | .analyticScan _ _ _ | .queryStmt _ _ | .unsupported _ => true
  | _ => false

/-- The nodes directly below a node that rows are read from. -/
def sources : Node → List Node
  | .subquery _ input _ | .filterScan input _ | .projectScan _ _ input | .aggregateScan _ input _ _
  | .orderByScan input _ | .limitScan input _ _ | .analyticScan _ input _ | .queryStmt _ input =>
    [input]
  | .arrayScan input _ _ | .insertStmt _ _ _ input => input.toList
  | .setOperation _ branches => branches.map (·.scan)
  | .withScan entries query _ => entries.map (·.query) ++ [query]
  | _ => []

/-- Rows are read from scans and queries only, not from other expressions or statements. -/
def ReadsSources (n : Node) : Prop := n.Everywhere fun m => ∀ c ∈ m.sources, c.isSource = true

instance (n : Node) : Decidable n.ReadsSources :=
  inferInstanceAs (Decidable (n.Everywhere fun m => ∀ c ∈ m.sources, c.isSource = true))

/-- Whether a scan selects: a projection does, and so does what only adds clauses behind one. -/
def isSelect : Node → Bool
  | .projectScan _ _ _ => true
  | .filterScan input _ | .orderByScan input _ | .limitScan input _ _ | .queryStmt _ input =>
    input.isSelect
  | .setOperation _ branches =>
    match branches with
    | [] => false
    | ⟨scan, _⟩ :: _ => scan.isSelect
  | _ => false

theorem mem_children_of_mem_sources {c n : Node} (h : c ∈ n.sources) : c ∈ n.children := by
  cases n <;> simp_all [sources, Node.children]

theorem ReadsSources.source {c n : Node} (h : n.ReadsSources) (hc : c ∈ n.sources) :
    c.isSource = true ∧ c.ReadsSources :=
  ⟨h.here c hc, h.children c (mem_children_of_mem_sources hc)⟩

end Node

theorem Text.startsWith_iff {front s : String} :
    startsWith front s = true ↔ ∃ rest, s = front ++ rest := by
  rw [startsWith, List.isPrefixOf_iff_prefix]
  constructor
  · rintro ⟨rest, hrest⟩
    exact ⟨String.ofList rest, String.toList_inj.1 (by simp [hrest])⟩
  · rintro ⟨rest, rfl⟩
    exact ⟨rest.toList, (String.toList_append ..).symm⟩

theorem Render.groupText_eq (input : String) (keys : List String) :
    groupText input keys =
      (if startsWith "SELECT" input then "FROM ( " ++ input ++ " )" else input) ++
        if keys = [] then "" else " GROUP BY " ++ commas keys := by
  unfold groupText groupSource
  cases keys with
  | nil => simp
  | cons key keys => simp [String.append_assoc]

theorem Render.startsWith_separated {sep : String} (h : sep.toList.head? = some ' ') (x : String)
    (xs : List String) : startsWith "SELECT" (separated sep (x :: xs)) = startsWith "SELECT" x := by
  cases xs with
  | nil => rfl
  | cons y r =>
    rw [separated, String.append_assoc, startsWith_append]
    rw [String.toList_append, List.head?_append, h]
    rfl

namespace Node

theorem startsWith_setOperation {settings : Settings} (code : Int32) {branches : List SetBranch}
    (h : ∀ b ∈ branches, Gives settings b.scan.render fun sql =>
      startsWith "SELECT" sql = b.scan.isSelect) :
    Gives settings (setOperation code branches).render fun sql =>
      startsWith "SELECT" sql = (setOperation code branches).isSelect := by
  rw [Node.render, SetBranch.renderAll_eq]
  refine .bind_last fun op => ?_
  cases branches with
  | nil =>
    refine .bind (.length []) fun sqls hsqls => .pure ?_
    obtain rfl := List.length_eq_zero_iff.1 hsqls
    rfl
  | cons b r =>
    obtain ⟨scan, columns⟩ := b
    have hscan : Gives settings (SetBranch.render ⟨scan, columns⟩) fun sql =>
        startsWith "SELECT" sql = scan.isSelect := by
      rw [SetBranch.render]
      exact h ⟨scan, columns⟩ List.mem_cons_self
    refine .bind (.each_cons r hscan) fun sqls hsqls => .pure ?_
    obtain ⟨sql, rest, rfl, hsql, -⟩ := hsqls
    rw [startsWith_separated (by simp), hsql, isSelect]

theorem startsWith_render {n : Node} (hsource : n.isSource = true) (hreads : n.ReadsSources)
    (settings : Settings) :
    Gives settings n.render fun sql => startsWith "SELECT" sql = n.isSelect := by
  have hfrom (s : String) : startsWith "SELECT" ("FROM " ++ s) = false := by
    simp [startsWith, List.isPrefixOf]
  induction n using Node.induction with
  | step n ih =>
    -- only what rows are read from can come to the front, and that is a source again
    have ih {c : Node} (hc : c ∈ n.sources) :
        Gives settings c.render fun sql => startsWith "SELECT" sql = c.isSelect :=
      ih c (mem_children_of_mem_sources hc) (hreads.source hc).1 (hreads.source hc).2
    cases n with
    | singleRow =>
      rw [Node.render]
      exact .pure rfl
    | tableScan table columns =>
      rw [Node.render]
      exact .bind_last fun name => .pure (hfrom _)
    | withRef name =>
      rw [Node.render]
      exact .pure (hfrom _)
    | arrayScan input array element =>
      cases input with
      | some input =>
        rw [Node.render]
        exact .throw _
      | none =>
        rw [Node.render]
        exact .bind_last fun sql => .bind_last fun lead => .pure (startsWith_arrayText _ _ _)
    | filterScan input condition =>
      rw [Node.render]
      refine .bind (ih (by simp [sources])) fun sql hsql => .bind_last fun filter => .pure ?_
      rw [String.append_assoc, String.append_assoc, String.append_assoc,
        startsWith_append _ (by simp), hsql, isSelect]
    | projectScan columns computed input =>
      rw [Node.render]
      exact .bind_last fun own => .bind_last fun below => .pure (startsWith_selectText _ _)
    | aggregateScan columns input keys aggregates =>
      rw [Node.render]
      exact .bind_last fun calls => .bind_last fun groups => .bind_last fun sql =>
        .pure (startsWith_groupText _ _)
    | setOperation code branches =>
      exact startsWith_setOperation code fun b hb => ih (List.mem_map_of_mem hb)
    | orderByScan input items =>
      rw [Node.render]
      refine .bind (ih (by simp [sources])) fun sql hsql => .pure ?_
      rw [startsWith_orderByText, hsql, isSelect]
    | limitScan input limit offset =>
      rw [Node.render.eq_def]
      refine .bind (ih (by simp [sources])) fun sql hsql => .bind_last fun count => ?_
      cases offset with
      | none =>
        refine .pure ?_
        rw [String.append_assoc, startsWith_append _ (by simp), hsql, isSelect]
      | some offset =>
        refine .bind_last fun skipped => .pure ?_
        rw [String.append_assoc, String.append_assoc, String.append_assoc,
          startsWith_append _ (by simp), hsql, isSelect]
    | withScan entries query recursive =>
      rw [Node.render]
      split
      · exact .throw_bind _ _
      · refine .bind_last fun sqls => .bind_last fun sql => .pure ?_
        simp [startsWith, List.isPrefixOf, isSelect]
    | analyticScan columns input groups =>
      rw [Node.render]
      exact .bind_last fun sql => .bind_last fun scope => .bind_last fun settings =>
        .pure (startsWith_analyticText _ _ _)
    | queryStmt columns query =>
      rw [Node.render, isSelect]
      exact ih (by simp [sources])
    | unsupported kind =>
      rw [Node.render]
      exact .throw _
    | literal | parameter | columnRef | argumentRef | columnDefault | call | aggregateCall
    | analyticCall | structField | subquery | insertStmt | deleteStmt | updateStmt =>
      cases hsource

/-- A text starts with `SELECT` exactly if its tree selects, whatever names, literals and functions
are in it, and however they are configured. So grouping wraps its input exactly if that selects. -/
theorem selects_as_tree {n : Node} (hsource : n.isSource = true) (hreads : n.ReadsSources)
    (settings : Settings) (s : State) :
    (∀ sql final, n.render.run settings s = .ok sql final →
      ((∃ rest, sql = "SELECT" ++ rest) ↔ n.isSelect = true)) ∧
    ∀ columns input keys aggregates, n = .aggregateScan columns input keys aggregates →
      ∀ sql final, n.render.run settings s = .ok sql final ↔ ∃ calls t groups u text,
        (each ComputedColumn.render aggregates).run settings s = .ok calls t ∧
        (each ComputedColumn.render keys).run settings t = .ok groups u ∧
        input.render.run settings u = .ok text final ∧
        sql = (if input.isSelect then "FROM ( " ++ text ++ " )" else text) ++
          if keys = [] then "" else " GROUP BY " ++ commas groups := by
  constructor
  · intro sql final hsql
    rw [← startsWith_iff, startsWith_render hsource hreads settings s sql final hsql]
  · rintro columns input keys aggregates rfl sql final
    obtain ⟨hinput, hbelow⟩ := hreads.source (c := input) (by simp [sources])
    have htext {groups : List String} {u : State} {text : String}
        (hlength : groups.length = keys.length) (h : input.render.run settings u = .ok text final) :
        groupText text groups = (if input.isSelect then "FROM ( " ++ text ++ " )" else text) ++
          if keys = [] then "" else " GROUP BY " ++ commas groups := by
      have hempty : groups = [] ↔ keys = [] := by
        rw [← List.length_eq_zero_iff, hlength, List.length_eq_zero_iff]
      simp only [groupText_eq, startsWith_render hinput hbelow settings u text final h, hempty]
    rw [aggregateScan_render_run_eq_ok]
    constructor
    · rintro ⟨calls, t, groups, u, text, hcalls, hgroups, hinput, rfl⟩
      exact ⟨calls, t, groups, u, text, hcalls, hgroups, hinput,
        htext (length_of_each_run hgroups) hinput⟩
    · rintro ⟨calls, t, groups, u, text, hcalls, hgroups, hinput, rfl⟩
      exact ⟨calls, t, groups, u, text, hcalls, hgroups, hinput,
        (htext (length_of_each_run hgroups) hinput).symm⟩

def selectedName : Node :=
  .projectScan [⟨"SELECT", "t", .scalar .int64⟩] [] (.tableScan "t" [])

def groupedUnion : Node :=
  .aggregateScan [] (.setOperation 0
    [⟨.queryStmt [] (.filterScan selectedName (.literal (.bool true) (.scalar .bool))), []⟩,
      ⟨.withRef "SELECT", []⟩])
    [⟨⟨"k", "t", .scalar .int64⟩, .columnRef ⟨"SELECT", "t", .scalar .int64⟩⟩] []

theorem groupedUnion_selects_as_tree :
    groupedUnion.isSource = true ∧ groupedUnion.ReadsSources ∧
    ∃ sql final, groupedUnion.render.run {} { cursor := .start [] [["t"]] } = .ok sql final ∧
      ((∃ rest, sql = "SELECT" ++ rest) ↔ groupedUnion.isSelect = true) ∧
      ∃ text groups, sql = "FROM ( " ++ text ++ " )" ++ (" GROUP BY " ++ commas groups) := by
  have hsource : groupedUnion.isSource = true := rfl
  have hreads : groupedUnion.ReadsSources := by decide +kernel
  have hrun : groupedUnion.render.run {} { cursor := .start [] [["t"]] } = .ok _ _ := rfl
  obtain ⟨hselects, hgroups⟩ := selects_as_tree hsource hreads {} { cursor := .start [] [["t"]] }
  obtain ⟨_, _, groups, _, text, _, _, _, hsql⟩ := (hgroups _ _ _ _ rfl _ _).1 hrun
  exact ⟨hsource, hreads, _, _, hrun, hselects _ _ hrun, text, groups, hsql⟩

end Node
end ResolvedSql
