import ResolvedSql.Proofs.Realization
import ResolvedSql.Proofs.Routes
import ResolvedSql.Statement
set_option autoImplicit false

namespace ResolvedSql

open Text Render

def Node.Realized (settings : Settings) (c : Cursor) (ρ : Naming) (n : Node) : Prop :=
  ∀ scope p, Realizes settings c ρ scope (n.route (settings.inlines c) p) n.render
    (n.meaning settings ρ scope p)

section
variable {settings : Settings} {c : Cursor} {ρ : Naming}

theorem Node.realized_call {function : String} {arguments : List Node} {type : SqlType}
    (ih : ∀ e ∈ (Node.call function arguments type).children, e.Realized settings c ρ) :
    (Node.call function arguments type).Realized settings c ρ := by
  intro scope p
  rw [Node.route, Node.render, Node.meaning, Node.renderAll_eq]
  refine .bind (.list (fun e he q => ih e he scope q) _ _) fun args _ => ?_
  exact .callee p _ _ _ (fun name => .pure _) fun name body => .inlineBody _ _ _

theorem Node.realized_aggregateCall {function : String} {arguments : List Node} {type : SqlType}
    {distinct : Bool} {orderBy : List OrderItem} {limit : Option Node}
    (ih : ∀ e ∈ (Node.aggregateCall function arguments type distinct orderBy limit).children,
      e.Realized settings c ρ) :
    (Node.aggregateCall function arguments type distinct orderBy limit).Realized settings c ρ := by
  intro scope p
  simp only [Node.children, List.mem_append, Option.mem_toList] at ih
  rw [Node.route.eq_def, Node.render, Node.meaning, Node.renderAll_eq]
  refine .bind (.list (fun e he q => ih e (.inl he) scope q) _ _) fun args _ => ?_
  refine .callee p _ _ _ (fun name => .functionPrefix_bind ?_) fun name body => .inlineBody _ _ _
  cases limit with
  | none =>
    rw [Node.renderLimit]
    exact .pure _
  | some e =>
    exact .bind_last (.limit (ih e (.inr rfl) _ _)) fun limits _ => .pure _

theorem Node.realized_analyticCall {function : String} {arguments : List Node} {type : SqlType}
    {distinct : Bool} {frame : Option Frame}
    (ih : ∀ e ∈ (Node.analyticCall function arguments type distinct frame).children,
      e.Realized settings c ρ) :
    (Node.analyticCall function arguments type distinct frame).Realized settings c ρ := by
  intro scope p
  cases scope with
  | none =>
    rw [Node.render, Node.meaning]
    exact .currentScope_none
  | some around =>
    simp only [Node.children, List.mem_append] at ih
    rw [Node.route.eq_def, Node.render, Node.meaning.eq_def]
    refine .currentScope_bind fun inner hinner => ?_
    -- the scope is `around` with columns added, so it has the same table, partition and order
    have htable : inner.table = around.table := by rw [← hinner]; rfl
    rw [htable]
    refine .arguments_bind (fun e he q => ih e (.inl he) _ q) _ _ _ fun args => ?_
    simp only
    cases arguments.foldl (fun table e => argumentTable e table) around.table with
    | none => exact .throw _
    | some table =>
      refine .callee p _ _ _ (fun name => .functionPrefix_bind ?_) fun _ _ => .inlineBody _ _ _
      refine .currentScope_bind fun inner hinner => ?_
      have hoptions (lead : String) : windowArguments lead distinct inner =
          windowArguments lead distinct around := by rw [← hinner]; rfl
      rw [hoptions]
      cases frame with
      | none =>
        rw [Frame.renderOption]
        exact .bind_last (.pure _) fun frames _ => .read_bind (.report_bind _ (.pure _))
      | some f =>
        obtain ⟨unit, first, last⟩ := f
        simp only [Option.map_some, Option.getD_some, Frame.offsets, List.mem_append] at ih
        refine .bind_last (.frame unit (.boundaryOption _ _ ?_) (.boundaryOption _ _ ?_))
          fun frames _ => .read_bind (.report_bind _ (.pure _))
        · exact fun e he => ih e (.inr (.inl he)) _ _
        · exact fun e he => ih e (.inr (.inr he)) _ _

theorem Node.realized_arrayScan {input : Option Node} {array : Node} {element : Column}
    (ih : ∀ e ∈ (Node.arrayScan input array element).children, e.Realized settings c ρ) :
    (Node.arrayScan input array element).Realized settings c ρ := by
  intro scope p
  cases input with
  | some input =>
    rw [Node.render, Node.meaning]
    exact .throw _
  | none =>
    rw [Node.route, Node.render, Node.meaning, Route.none_append]
    exact .bind_last (ih _ (by simp [Node.children]) _ _) fun sql _ =>
    .functionPrefix_bind (.pure _)

theorem Node.realized_projectScan {columns : List Column} {computed : List ComputedColumn}
    {input : Node}
    (ih : ∀ e ∈ (Node.projectScan columns computed input).children, e.Realized settings c ρ) :
    (Node.projectScan columns computed input).Realized settings c ρ := by
  intro scope p
  rw [Node.route, Node.render, Node.meaning, ComputedColumn.renderAll_eq]
  simp only [Node.children, List.mem_append, List.mem_map, List.mem_singleton] at ih
  refine .bind (.columnScope (.list (fun e he q => .computedColumn (ih _ ?_ _ q)) _ _))
    fun own _ => ?_
  · exact .inl ⟨e, he, rfl⟩
  exact .bind_last (.columnScope (ih _ (.inr rfl) _ _)) fun below _ => .pure _

theorem Node.realized_aggregateScan {columns : List Column} {input : Node}
    {keys aggregates : List ComputedColumn}
    (ih : ∀ e ∈ (Node.aggregateScan columns input keys aggregates).children,
      e.Realized settings c ρ) :
    (Node.aggregateScan columns input keys aggregates).Realized settings c ρ := by
  intro scope p
  rw [Node.route, Node.render, Node.meaning, ComputedColumn.renderAll_eq,
    ComputedColumn.renderAll_eq, Route.append_assoc]
  simp only [Node.children, List.mem_append, List.mem_map, List.mem_singleton] at ih
  refine .bind (.list (fun e he q => .computedColumn (ih _ ?_ _ q)) _ _) fun _ _ => ?_
  · exact .inl (.inl ⟨e, he, rfl⟩)
  refine .bind (.list (fun e he q => .computedColumn (ih _ ?_ _ q)) _ _) fun groups _ => ?_
  · exact .inl (.inr ⟨e, he, rfl⟩)
  exact .bind_last (ih _ (.inr rfl) _ _) fun sql _ => .pure _

theorem Node.realized_setOperation {code : Int32} {branches : List SetBranch}
    (ih : ∀ e ∈ (Node.setOperation code branches).children, e.Realized settings c ρ) :
    (Node.setOperation code branches).Realized settings c ρ := by
  intro scope p
  rw [Node.route, Node.render, Node.meaning, SetBranch.renderAll_eq,
    ← Route.none_append (Route.list _ _ _)]
  refine .bind (.demand _) fun op _ =>
    .bind_last (.list (fun b hb q => ?_) _ _) fun sqls _ => .pure _
  cases b with
  | mk scan columns =>
    rw [SetBranch.render]
    exact ih _ (List.mem_map.2 ⟨_, hb, rfl⟩) _ _

theorem Node.realized_limitScan {input limit : Node} {offset : Option Node}
    (ih : ∀ e ∈ (Node.limitScan input limit offset).children, e.Realized settings c ρ) :
    (Node.limitScan input limit offset).Realized settings c ρ := by
  intro scope p
  simp only [Node.children, List.mem_cons, Option.mem_toList] at ih
  rw [Node.route.eq_def, Node.render.eq_def, Node.meaning.eq_def]
  simp only [Route.append_assoc]
  refine .bind (ih _ (.inl rfl) _ _) fun sql _ => ?_
  refine .bind (ih _ (.inr (.inl rfl)) _ _) fun count _ => ?_
  cases offset with
  | none => exact .pure _
  | some e => exact .bind_last (ih _ (.inr (.inr rfl)) _ _) fun _ _ => .pure _

theorem Node.realized_withScan {entries : List NamedQuery} {query : Node} {recursive : Bool}
    (ih : ∀ e ∈ (Node.withScan entries query recursive).children, e.Realized settings c ρ) :
    (Node.withScan entries query recursive).Realized settings c ρ := by
  intro scope p
  simp only [Node.children, List.mem_append, List.mem_map, List.mem_singleton] at ih
  rw [Node.route, Node.render, Node.meaning, NamedQuery.renderAll_eq]
  cases recursive with
  | true => exact .throw_bind _
  | false =>
    refine .bind (.list (fun e he q => ?_) _ _) fun sqls _ => ?_
    · cases e with
      | mk name query =>
        rw [NamedQuery.render]
        exact .bind_last (ih _ (.inl ⟨_, he, rfl⟩) _ _) fun _ _ => .pure _
    · exact .bind_last (ih _ (.inr rfl) _ _) fun _ _ => .pure _

theorem Node.realized_analyticScan {columns : List Column} {input : Node} {groups : List CallGroup}
    (ih : ∀ e ∈ (Node.analyticScan columns input groups).children, e.Realized settings c ρ) :
    (Node.analyticScan columns input groups).Realized settings c ρ := by
  intro scope p
  simp only [Node.children, List.mem_cons, List.mem_flatMap, List.mem_map] at ih
  rw [Node.route, Node.render, Node.meaning]
  refine .bind (ih _ (.inl rfl) _ _) fun sql _ => ?_
  have hgroups : Collects settings c ρ {} _ (CallGroup.renderAll groups) _ :=
    Collects.groups (fun g hg inner q => by
      rw [ComputedColumn.renderAll_eq]
      exact .list (fun e he q => .computedColumn (ih _ (.inr ⟨g, hg, e, he, rfl⟩) _ q)) q 0)
      (1 :: p) 0 {}
  exact .analyticScope_last
    (f := fun met => do return analyticText (← read).config.rowIdColumn sql met)
    (g := fun met => return analyticText settings.config.rowIdColumn sql met)
    hgroups fun met => .read_bind (.pure _)

theorem Node.realized_insertStmt {table : String} {columns : List Column}
    {rows : List (List Node)} {query : Option Node}
    (ih : ∀ e ∈ (Node.insertStmt table columns rows query).children, e.Realized settings c ρ) :
    (Node.insertStmt table columns rows query).Realized settings c ρ := by
  intro scope p
  simp only [Node.children, List.mem_append, List.mem_flatten, Option.mem_toList] at ih
  rw [Node.route.eq_def, Node.render.eq_def, Node.meaning.eq_def]
  simp only [Route.append_assoc]
  refine .bind (.nextName _) fun name _ => ?_
  cases query with
  | some e =>
    cases rows with
    | nil =>
      exact .bind_last (ih _ (.inr rfl) _ _) fun _ _ => .pure _
    | cons row rows => exact .throw_bind _
  | none =>
    cases rows with
    | nil => exact .throw_bind _
    | cons row rows =>
      rw [Route.append_none]
      exact .bind_last (.rows (fun row hr e he q => ih e (.inl ⟨row, hr, he⟩) _ q) _ _ _)
        fun sqls _ => .pure _

theorem Node.realized_deleteStmt {table : String} {condition : Option Node}
    (ih : ∀ e ∈ (Node.deleteStmt table condition).children, e.Realized settings c ρ) :
    (Node.deleteStmt table condition).Realized settings c ρ := by
  intro scope p
  simp only [Node.children, Option.mem_toList] at ih
  rw [Node.route.eq_def, Node.render.eq_def, Node.meaning.eq_def]
  refine .bind (.nextName _) fun name _ => ?_
  cases condition with
  | none =>
    rw [Node.renderOption]
    exact .pure _
  | some e =>
    rw [Node.renderOption]
    exact .bind_last (ih _ rfl _ _) fun _ _ => .pure _

theorem Node.realized_updateStmt {table : String} {assignments : List Assignment}
    {condition : Option Node}
    (ih : ∀ e ∈ (Node.updateStmt table assignments condition).children, e.Realized settings c ρ) :
    (Node.updateStmt table assignments condition).Realized settings c ρ := by
  intro scope p
  simp only [Node.children, List.mem_append, List.mem_map, Option.mem_toList] at ih
  rw [Node.route.eq_def, Node.render.eq_def, Node.meaning.eq_def]
  simp only [Route.append_assoc]
  refine .bind (.nextName _) fun name _ => ?_
  cases hempty : assignments.isEmpty with
  | true => exact .throw_bind _
  | false =>
    rw [Assignment.renderAll_eq]
    refine .bind (.list (fun a ha q => ?_) _ _) fun sqls _ => ?_
    · cases a with
      | mk target value =>
        rw [Assignment.render]
        exact .bind_last (ih _ (.inl ⟨_, ha, rfl⟩) _ _) fun _ _ => .pure _
    · cases condition with
      | none =>
        rw [Node.renderOption]
        exact .pure _
      | some e =>
        rw [Node.renderOption]
        exact .bind_last (ih _ (.inr rfl) _ _) fun _ _ => .pure _

theorem Node.realized_step (hρ : ρ.argument = fun _ => "?") (n : Node)
    (ih : ∀ e ∈ n.children, e.Realized settings c ρ) : n.Realized settings c ρ := by
  intro scope p
  cases n with
  | literal value type =>
    rw [Node.route, Node.render, Node.meaning]
    exact .read_bind (.demand _)
  | parameter name position type =>
    rw [Node.route, Node.render, Node.meaning]
    exact .pure _
  | columnRef column =>
    rw [Node.route, Node.render, Node.meaning]
    exact .pure _
  | argumentRef name type =>
    rw [Node.route, Node.render, Node.meaning, hρ]
    exact .pure _
  | call => exact realized_call ih scope p
  | aggregateCall => exact realized_aggregateCall ih scope p
  | analyticCall => exact realized_analyticCall ih scope p
  | structField operand index type =>
    rw [Node.route, Node.render, Node.meaning]
    exact .bind_last (ih _ (by simp [Node.children]) _ _) fun sql _ =>
      .functionPrefix_bind (.pure _)
  | subquery kind query type =>
    rw [Node.route, Node.render, Node.meaning]
    exact .bind_last (ih _ (by simp [Node.children]) _ _) fun sql _ => .pure _
  | columnDefault =>
    rw [Node.route, Node.render, Node.meaning]
    exact .pure _
  | singleRow =>
    rw [Node.route, Node.render, Node.meaning]
    exact .pure _
  | tableScan name columns =>
    rw [Node.route, Node.render, Node.meaning]
    exact .bind_last (.nextName _) fun name _ => .pure _
  | arrayScan => exact realized_arrayScan ih scope p
  | filterScan input condition =>
    rw [Node.route, Node.render, Node.meaning]
    refine .bind (ih _ (by simp [Node.children]) _ _) fun sql _ => ?_
    exact .bind_last (ih _ (by simp [Node.children]) _ _) fun filter _ => .pure _
  | projectScan => exact realized_projectScan ih scope p
  | aggregateScan => exact realized_aggregateScan ih scope p
  | setOperation => exact realized_setOperation ih scope p
  | orderByScan input items =>
    rw [Node.route, Node.render, Node.meaning]
    exact .bind_last (ih _ (by simp [Node.children]) _ _) fun sql _ => .pure _
  | limitScan => exact realized_limitScan ih scope p
  | withScan => exact realized_withScan ih scope p
  | withRef name =>
    rw [Node.route, Node.render, Node.meaning]
    exact .pure _
  | analyticScan => exact realized_analyticScan ih scope p
  | queryStmt columns query =>
    rw [Node.route, Node.render, meaning_queryStmt]
    exact ih _ (by simp [Node.children]) _ _
  | insertStmt => exact realized_insertStmt ih scope p
  | deleteStmt => exact realized_deleteStmt ih scope p
  | updateStmt => exact realized_updateStmt ih scope p
  | unsupported kind =>
    rw [Node.render, Node.meaning]
    exact .throw _

theorem Node.realizes (hρ : ρ.argument = fun _ => "?") (n : Node) : n.Realized settings c ρ := by
  induction n using Node.induction with
  | step n ih => exact Node.realized_step hρ n ih

end

/-- The names of the paths from the first on, for the given sites; any other site has none. -/
def Naming.ofSites (c : Cursor) (sites : List Site) : Naming where
  reference site :=
    if site ∈ sites then c.nameAt (sites.idxOf site)
    else .error (.namePathsExhausted sites.length c.paths.length)

theorem Naming.ofSites_agrees (c : Cursor) {sites : List Site} (h : sites.Nodup) :
    (Naming.ofSites c sites).Agrees c 0 sites := by
  intro k site hk
  obtain ⟨hlt, rfl⟩ := List.getElem?_eq_some_iff.1 hk
  simp only [Naming.ofSites, List.getElem_mem, if_true]
  rw [h.idxOf_getElem, Nat.zero_add]

namespace Statement

/-- The sites that rendering the statement visits, if it succeeds. -/
def visited (s : Statement) (settings : Settings) : List Site :=
  s.root.route (settings.inlines s.initialState.cursor) [] 0

def naming (s : Statement) (settings : Settings) : Naming :=
  .ofSites s.initialState.cursor (s.visited settings)

theorem naming_agrees (s : Statement) (settings : Settings) :
    (s.naming settings).Agrees s.initialState.cursor 0 (s.visited settings) :=
  Naming.ofSites_agrees _ (s.root.route_nodup _ _ _)

theorem realizes (s : Statement) (settings : Settings) {ρ : Naming}
    (hρ : ρ.argument = fun _ => "?")
    (h : ρ.Agrees s.initialState.cursor 0 (s.visited settings)) :
    (∃ log, s.root.render.run settings s.initialState =
      (s.root.meaning settings ρ none []).finish s.initialState log) ∧
    (s.root.meaning settings ρ none []).Resolves ρ s.initialState.cursor 0 (s.visited settings) :=
  s.root.realizes hρ none [] s.initialState 0 rfl (Nat.zero_le _) rfl h

theorem toSql_result (s : Statement) (settings : Settings) {ρ : Naming}
    (hρ : ρ.argument = fun _ => "?")
    (h : ρ.Agrees s.initialState.cursor 0 (s.visited settings)) :
    (s.toSql settings).result = (s.root.meaning settings ρ none []).result := by
  obtain ⟨⟨log, hrun⟩, -⟩ := s.realizes settings hρ h
  unfold toSql
  rw [hrun]
  cases hm : (s.root.meaning settings ρ none []).result <;> simp [Meaning.finish, hm]

end Statement
end ResolvedSql
