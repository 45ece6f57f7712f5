import ResolvedSql.Proofs.Parts
import ResolvedSql.Proofs.Run
/-!
What every rendering does because its steps do it. A property of renderings that the single steps
have, and that sequences and both kinds of scope keep, holds of the rendering of any tree. This is
one induction over trees, whether the property speaks of one run or compares several. A property
that window calls break still holds of the other nodes whose parts have it.
-/
set_option autoImplicit false

namespace ResolvedSql

open Text Render

def Event.path? : Event → Option Nat
  | .nameResolved index _ => some index
  | _ => none

def Node.isWindowCall : Node → Bool
  | .analyticCall _ _ _ _ _ => true
  | _ => false

def Node.scopeParts : Node → List Node
  | .analyticScan _ input _ => [input]
  | n => n.children

/-- The parts of a node that are rendered in a scope of its own: the calls of an analytic scan. -/
def Node.groupParts : Node → List Node
  | .analyticScan _ _ groups => groups.flatMap fun g => g.calls.map (·.expr)
  | _ => []

theorem Node.mem_children_of_mem_scopeParts {n e : Node} (h : e ∈ n.scopeParts) :
    e ∈ n.children := by
  cases n with
  | analyticScan columns input groups =>
    rw [List.mem_singleton.1 h]
    exact List.mem_cons_self
  | _ => exact h

theorem Node.mem_children_of_mem_groupParts {n e : Node} (h : e ∈ n.groupParts) :
    e ∈ n.children := by
  cases n with
  | analyticScan columns input groups => exact List.mem_cons_of_mem _ h
  | _ => cases h

/-- A property `C` of renderings that the steps outside window calls have and that sequences and
scopes keep. Inside the scope of an analytic scan, which is given up at its end, the weaker `G` is
enough. -/
structure Render.Stable (C G : ∀ α : Type, Render α → Prop) : Prop where
  pure {α : Type} (a : α) : C α (Pure.pure a)
  bind {α β : Type} {x : Render α} {f : α → Render β} (hx : C α x) (hf : ∀ a, C β (f a)) :
    C β (x >>= f)
  throw {α : Type} (e : Error) : C α (MonadExcept.throw e)
  read : C Settings MonadReader.read
  report (event : Event) (h : event.path? = none) : C Unit (Render.report event)
  nextName : C String Render.nextName
  addPending (column : Column) (sql : String) :
    C Unit (Render.addPending column (sql ++ " AS " ++ quoteName column.name))
  columnScope {α : Type} {x : Render α} (hx : C α x) : C (α × Keyed String) (Render.columnScope x)
  grouped {α : Type} {x : Render α} (hx : C α x) : G α x
  groupBind {α β : Type} {x : Render α} {f : α → Render β} (hx : G α x) (hf : ∀ a, G β (f a)) :
    G β (x >>= f)
  openGroup (group : CallGroup) : G Unit (modifyScope (Render.openGroup group))
  analyticScope {α : Type} {x : Render α} (hx : G α x) :
    C (α × AnalyticScope) (Render.analyticScope x)

/-- The steps of window calls have the property as well. -/
structure Render.Closed (C G : ∀ α : Type, Render α → Prop) : Prop extends Render.Stable C G where
  currentScope : C AnalyticScope Render.currentScope
  addColumn (sql : String) : C Unit (modifyScope (·.addColumn sql))

namespace Render.Stable

variable {C G : ∀ α : Type, Render α → Prop} {α β : Type}

theorem demand (h : Stable C G) (r : Except Error α) : C α (Render.demand r) := by
  cases r with
  | ok a => exact h.pure a
  | error e => exact h.throw e

theorem functionPrefix (h : Stable C G) : C String Render.functionPrefix :=
  h.bind h.read fun _ => h.pure _

theorem resolveCallee (h : Stable C G) (function : String) (catalog : Catalog) (type : SqlType) :
    C Callee (Render.resolveCallee function catalog type) := by
  unfold Render.resolveCallee
  split
  · exact h.bind h.functionPrefix fun _ => h.pure _
  · refine h.bind h.nextName fun name => h.bind h.read fun settings => ?_
    split <;> exact h.pure _

theorem inlineBody (h : Stable C G) (name : String) (body : FunctionBody) (args : List String) :
    C String (Render.inlineBody name body args) :=
  h.bind (h.demand _) fun _ => h.bind (h.report _ rfl) fun _ => h.pure _

theorem each (h : Stable C G) {x : α → Render β} {as : List α} (hx : ∀ a ∈ as, C β (x a)) :
    C (List β) (Render.each x as) := by
  induction as with
  | nil => exact h.pure _
  | cons a as ih =>
    refine h.bind (hx a (List.mem_cons_self ..)) fun b => ?_
    exact h.bind (ih fun a ha => hx a (List.mem_cons_of_mem _ ha)) fun bs => h.pure _

theorem renderOption (h : Stable C G) {o : Option Node} (ho : ∀ e ∈ o.toList, C String e.render) :
    C String (Node.renderOption o) := by
  cases o with
  | none =>
    rw [Node.renderOption]
    exact h.pure _
  | some e =>
    rw [Node.renderOption]
    exact ho e (by simp)

theorem renderLimit (h : Stable C G) {o : Option Node} (ho : ∀ e ∈ o.toList, C String e.render) :
    C (List String) (Node.renderLimit o) := by
  cases o with
  | none =>
    rw [Node.renderLimit]
    exact h.pure _
  | some e =>
    rw [Node.renderLimit]
    exact h.bind (ho e (by simp)) fun sql => h.bind h.functionPrefix fun lead => h.pure _

theorem renderRows (h : Stable C G) {rows : List (List Node)}
    (hrows : ∀ row ∈ rows, ∀ e ∈ row, C String e.render) (width index : Nat) :
    C (List String) (Node.renderRows width index rows) := by
  induction rows generalizing index with
  | nil =>
    rw [Node.renderRows]
    exact h.pure _
  | cons row rows ih =>
    have hrow : C (List String) (Node.renderAll row) := by
      rw [Node.renderAll_eq]
      exact h.each (hrows row (List.mem_cons_self ..))
    have ih := ih (fun row hr => hrows row (List.mem_cons_of_mem _ hr)) (index + 1)
    have hrest := h.bind hrow fun sqls => h.bind ih fun rest => h.pure (rowText sqls :: rest)
    rw [Node.renderRows]
    split
    · exact h.bind (h.throw _) fun _ => hrest
    · exact hrest

theorem boundary (h : Stable C G) (edge : String) {b : Boundary}
    (hb : ∀ e ∈ b.offset.toList, C String e.render) : C String (b.render edge) := by
  cases b with
  | mk code offset =>
    rw [Boundary.render]
    refine h.bind (h.demand _) fun kind => h.bind h.functionPrefix fun lead => ?_
    split
    · refine h.bind (h.renderOption hb) fun sql => ?_
      split
      · exact h.bind (h.throw _) fun _ => h.pure _
      · exact h.pure _
    · exact h.pure _

theorem boundaryOption (h : Stable C G) (edge : String) {o : Option Boundary}
    (ho : ∀ e ∈ (o.bind (·.offset)).toList, C String e.render) :
    C (List String) (Boundary.renderOption edge o) := by
  cases o with
  | none =>
    rw [Boundary.renderOption]
    exact h.pure _
  | some b =>
    rw [Boundary.renderOption]
    exact h.bind (h.boundary edge ho) fun sql => h.pure _

theorem frameOption (h : Stable C G) {o : Option Frame}
    (ho : ∀ e ∈ (o.map Frame.offsets).getD [], C String e.render) :
    C (List String) (Frame.renderOption o) := by
  cases o with
  | none =>
    rw [Frame.renderOption]
    exact h.pure _
  | some f =>
    obtain ⟨unit, first, last⟩ := f
    simp only [Option.map_some, Option.getD_some, Frame.offsets, List.mem_append] at ho
    rw [Frame.renderOption, Frame.render]
    refine h.bind (h.demand _) fun unit => h.bind h.functionPrefix fun lead => ?_
    refine h.bind (h.boundaryOption _ fun e he => ho e (.inl he)) fun starts => ?_
    exact h.bind (h.boundaryOption _ fun e he => ho e (.inr he)) fun ends => h.pure _

theorem computedColumn (h : Stable C G) {c : ComputedColumn} (hc : C String c.expr.render) :
    C String c.render := by
  cases c with
  | mk column expr =>
    rw [ComputedColumn.render]
    exact h.bind hc fun sql => h.bind (h.addPending _ _) fun _ => h.pure _

theorem computedColumns (h : Stable C G) {cs : List ComputedColumn}
    (hcs : ∀ c ∈ cs, C String c.expr.render) : C (List String) (ComputedColumn.renderAll cs) := by
  rw [ComputedColumn.renderAll_eq]
  exact h.each fun c hc => h.computedColumn (hcs c hc)

theorem groupedColumn (h : Stable C G) {c : ComputedColumn} (hc : G String c.expr.render) :
    G String c.render := by
  cases c with
  | mk column expr =>
    rw [ComputedColumn.render]
    refine h.groupBind hc fun sql => h.grouped ?_
    exact h.bind (h.addPending _ _) fun _ => h.pure _

theorem groupedColumns (h : Stable C G) {cs : List ComputedColumn}
    (hcs : ∀ c ∈ cs, G String c.expr.render) : G (List String) (ComputedColumn.renderAll cs) := by
  induction cs with
  | nil =>
    rw [ComputedColumn.renderAll]
    exact h.grouped (h.pure _)
  | cons c cs ih =>
    rw [ComputedColumn.renderAll]
    refine h.groupBind (h.groupedColumn (hcs c (List.mem_cons_self ..))) fun sql => ?_
    exact h.groupBind (ih fun c hc => hcs c (List.mem_cons_of_mem _ hc)) fun sqls =>
      h.grouped (h.pure _)

theorem groups (h : Stable C G) {gs : List CallGroup}
    (hgs : ∀ g ∈ gs, ∀ c ∈ g.calls, G String c.expr.render) :
    G (List String) (CallGroup.renderAll gs) := by
  induction gs with
  | nil =>
    rw [CallGroup.renderAll]
    exact h.grouped (h.pure _)
  | cons g gs ih =>
    have ih := ih fun g hg => hgs g (List.mem_cons_of_mem _ hg)
    have hcalls := h.groupedColumns (hgs g (List.mem_cons_self ..))
    rw [CallGroup.renderAll]
    refine h.groupBind ?_ fun sql => h.groupBind ih fun sqls => h.grouped (h.pure _)
    cases g with
    | mk partition order calls =>
      rw [CallGroup.render]
      refine h.groupBind (h.openGroup _) fun _ => ?_
      exact h.groupBind hcalls fun sqls => h.grouped (h.pure _)

end Render.Stable

section
variable {C G : ∀ α : Type, Render α → Prop}

theorem Node.render_stable_call (h : Render.Stable C G) {function : String} {arguments : List Node}
    {type : SqlType} (ih : ∀ e ∈ (Node.call function arguments type).children, C String e.render) :
    C String (Node.call function arguments type).render := by
  rw [Node.render, Node.renderAll_eq]
  refine h.bind (h.each ih) fun args => h.bind (h.resolveCallee _ _ _) fun callee => ?_
  split
  · exact h.inlineBody _ _ _
  · exact h.pure _

theorem Node.render_stable_aggregateCall (h : Render.Stable C G) {function : String}
    {arguments : List Node} {type : SqlType} {distinct : Bool} {orderBy : List OrderItem}
    {limit : Option Node}
    (ih : ∀ e ∈ (Node.aggregateCall function arguments type distinct orderBy limit).children,
      C String e.render) :
    C String (Node.aggregateCall function arguments type distinct orderBy limit).render := by
  simp only [Node.children, List.mem_append] at ih
  rw [Node.render, Node.renderAll_eq]
  refine h.bind (h.each fun e he => ih e (.inl he)) fun args => ?_
  refine h.bind (h.resolveCallee _ _ _) fun callee => ?_
  split
  · exact h.inlineBody _ _ _
  · refine h.bind h.functionPrefix fun lead => ?_
    exact h.bind (h.renderLimit fun e he => ih e (.inr he)) fun limits => h.pure _

theorem Node.render_stable_arrayScan (h : Render.Stable C G) {input : Option Node} {array : Node}
    {element : Column}
    (ih : ∀ e ∈ (Node.arrayScan input array element).children, C String e.render) :
    C String (Node.arrayScan input array element).render := by
  cases input with
  | some input =>
    rw [Node.render]
    exact h.throw _
  | none =>
    rw [Node.render]
    refine h.bind (ih _ (by simp [Node.children])) fun sql => ?_
    exact h.bind h.functionPrefix fun lead => h.pure _

theorem Node.render_stable_projectScan (h : Render.Stable C G) {columns : List Column}
    {computed : List ComputedColumn} {input : Node}
    (ih : ∀ e ∈ (Node.projectScan columns computed input).children, C String e.render) :
    C String (Node.projectScan columns computed input).render := by
  simp only [Node.children, List.mem_append, List.mem_map, List.mem_singleton] at ih
  rw [Node.render]
  refine h.bind (h.columnScope (h.computedColumns fun c hc => ih _ ?_)) fun own => ?_
  · exact .inl ⟨c, hc, rfl⟩
  exact h.bind (h.columnScope (ih _ (.inr rfl))) fun below => h.pure _

theorem Node.render_stable_aggregateScan (h : Render.Stable C G) {columns : List Column}
    {input : Node} {keys aggregates : List ComputedColumn}
    (ih : ∀ e ∈ (Node.aggregateScan columns input keys aggregates).children, C String e.render) :
    C String (Node.aggregateScan columns input keys aggregates).render := by
  simp only [Node.children, List.mem_append, List.mem_map, List.mem_singleton] at ih
  rw [Node.render]
  refine h.bind (h.computedColumns fun c hc => ih _ (.inl (.inl ⟨c, hc, rfl⟩))) fun _ => ?_
  refine h.bind (h.computedColumns fun c hc => ih _ (.inl (.inr ⟨c, hc, rfl⟩))) fun keys => ?_
  exact h.bind (ih _ (.inr rfl)) fun sql => h.pure _

theorem Node.render_stable_setOperation (h : Render.Stable C G) {code : Int32}
    {branches : List SetBranch}
    (ih : ∀ e ∈ (Node.setOperation code branches).children, C String e.render) :
    C String (Node.setOperation code branches).render := by
  rw [Node.render, SetBranch.renderAll_eq]
  refine h.bind (h.demand _) fun op => h.bind (h.each fun b hb => ?_) fun sqls => h.pure _
  cases b with
  | mk scan columns =>
    rw [SetBranch.render]
    exact ih _ (List.mem_map.2 ⟨_, hb, rfl⟩)

theorem Node.render_stable_limitScan (h : Render.Stable C G) {input limit : Node}
    {offset : Option Node}
    (ih : ∀ e ∈ (Node.limitScan input limit offset).children, C String e.render) :
    C String (Node.limitScan input limit offset).render := by
  rw [Node.render.eq_def]
  refine h.bind (ih _ (by simp [Node.children])) fun sql => ?_
  refine h.bind (ih _ (by simp [Node.children])) fun count => ?_
  cases offset with
  | none => exact h.pure _
  | some e =>
    exact h.bind (ih e (by simp [Node.children])) fun offset => h.pure _

theorem Node.render_stable_withScan (h : Render.Stable C G) {entries : List NamedQuery}
    {query : Node} {recursive : Bool}
    (ih : ∀ e ∈ (Node.withScan entries query recursive).children, C String e.render) :
    C String (Node.withScan entries query recursive).render := by
  simp only [Node.children, List.mem_append, List.mem_map, List.mem_singleton] at ih
  have hentry (e : NamedQuery) (he : e ∈ entries) : C String e.render := by
    cases e with
    | mk name query =>
      rw [NamedQuery.render]
      exact h.bind (ih query (.inl ⟨_, he, rfl⟩)) fun sql => h.pure _
  have hrest := h.bind (h.each hentry) fun sqls => h.bind (ih query (.inr rfl)) fun sql =>
    h.pure ("WITH " ++ separated ", " sqls ++ " " ++ sql)
  rw [Node.render, NamedQuery.renderAll_eq]
  split
  · exact h.bind (h.throw _) fun _ => hrest
  · exact hrest

theorem Node.render_stable_analyticScan (h : Render.Stable C G) {columns : List Column}
    {input : Node} {groups : List CallGroup}
    (ih : ∀ e ∈ (Node.analyticScan columns input groups).scopeParts, C String e.render)
    (hgroups : ∀ e ∈ (Node.analyticScan columns input groups).groupParts, G String e.render) :
    C String (Node.analyticScan columns input groups).render := by
  rw [Node.render]
  refine h.bind (ih _ (List.mem_singleton.2 rfl)) fun sql => ?_
  refine h.bind (h.analyticScope (h.groups fun g hg c hc => hgroups _ ?_)) fun scope => ?_
  · exact List.mem_flatMap.2 ⟨g, hg, List.mem_map_of_mem hc⟩
  exact h.bind h.read fun settings => h.pure _

theorem Node.render_stable_insertStmt (h : Render.Stable C G) {table : String}
    {columns : List Column} {rows : List (List Node)} {query : Option Node}
    (ih : ∀ e ∈ (Node.insertStmt table columns rows query).children, C String e.render) :
    C String (Node.insertStmt table columns rows query).render := by
  simp only [Node.children, List.mem_append, List.mem_flatten, Option.mem_toList] at ih
  rw [Node.render.eq_def]
  refine h.bind h.nextName fun name => ?_
  cases query with
  | some e =>
    have hquery := h.bind (ih e (.inr rfl)) fun sql => h.pure (insertText name columns sql)
    simp only
    split
    · exact h.bind (h.throw _) fun _ => hquery
    · exact hquery
  | none =>
    have hrows := h.bind
      (h.renderRows (fun row hr e he => ih e (.inl ⟨row, hr, he⟩)) columns.length 0)
      fun sqls => h.pure (insertText name columns ("VALUES " ++ commas sqls))
    simp only
    split
    · exact h.bind (h.throw _) fun _ => hrows
    · exact hrows

theorem Node.render_stable_updateStmt (h : Render.Stable C G) {table : String}
    {assignments : List Assignment} {condition : Option Node}
    (ih : ∀ e ∈ (Node.updateStmt table assignments condition).children, C String e.render) :
    C String (Node.updateStmt table assignments condition).render := by
  simp only [Node.children, List.mem_append, List.mem_map] at ih
  rw [Node.render, Assignment.renderAll_eq]
  refine h.bind h.nextName fun name => ?_
  have hassignment (a : Assignment) (ha : a ∈ assignments) : C String a.render := by
    cases a with
    | mk target value =>
      rw [Assignment.render]
      exact h.bind (ih value (.inl ⟨_, ha, rfl⟩)) fun sql => h.pure _
  have hrest := h.bind (h.each hassignment) fun sqls =>
    h.bind (h.renderOption fun e he => ih e (.inr he)) fun sql =>
      h.pure (whereText ("UPDATE " ++ quoteName name ++ " SET " ++ commas sqls) sql)
  split
  · exact h.bind (h.throw _) fun _ => hrest
  · exact hrest

theorem Render.Closed.renderArguments (h : Closed C G) {es : List Node}
    (hes : ∀ e ∈ es, C String e.render) (table : Option String) :
    C (List String × Option String) (Node.renderArguments es table) := by
  induction es generalizing table with
  | nil =>
    rw [Node.renderArguments]
    exact h.pure _
  | cons e es ih =>
    rw [Node.renderArguments]
    have ih := ih (fun e he => hes e (List.mem_cons_of_mem _ he)) (argumentTable e table)
    refine h.bind (hes e (List.mem_cons_self ..)) fun sql => ?_
    split
    · exact h.bind (h.addColumn sql) fun _ => h.bind ih fun _ => h.pure _
    · exact h.bind ih fun _ => h.pure _

theorem Node.render_closed_analyticCall (h : Render.Closed C G) {function : String}
    {arguments : List Node} {type : SqlType} {distinct : Bool} {frame : Option Frame}
    (ih : ∀ e ∈ (Node.analyticCall function arguments type distinct frame).children,
      C String e.render) :
    C String (Node.analyticCall function arguments type distinct frame).render := by
  simp only [Node.children, List.mem_append] at ih
  rw [Node.render]
  refine h.bind h.currentScope fun scope => ?_
  refine h.bind (h.renderArguments (fun e he => ih e (.inl he)) _) fun args => ?_
  simp only
  split
  · exact h.throw _
  · refine h.bind (h.resolveCallee _ _ _) fun callee => ?_
    split
    · exact h.inlineBody _ _ _
    · refine h.bind h.functionPrefix fun lead => h.bind h.currentScope fun scope => ?_
      refine h.bind (h.frameOption fun e he => ih e (.inr he)) fun frames => ?_
      exact h.bind h.read fun settings => h.bind (h.report _ rfl) fun _ => h.pure _

theorem Node.render_stable (h : Render.Stable C G) {n : Node} (hn : n.isWindowCall = false)
    (ih : ∀ e ∈ n.scopeParts, C String e.render) (hgroups : ∀ e ∈ n.groupParts, G String e.render) :
    C String n.render := by
  cases n with
  | literal value type =>
    rw [Node.render]
    exact h.bind h.read fun settings => h.demand _
  | parameter | columnRef | argumentRef | columnDefault | singleRow | withRef =>
    rw [Node.render]
    exact h.pure _
  | call => exact render_stable_call h ih
  | aggregateCall => exact render_stable_aggregateCall h ih
  | analyticCall => cases hn
  | structField operand index type =>
    rw [Node.render]
    refine h.bind (ih _ (by simp [Node.scopeParts, Node.children])) fun sql => ?_
    exact h.bind h.functionPrefix fun lead => h.pure _
  | subquery kind query type =>
    rw [Node.render]
    exact h.bind (ih _ (by simp [Node.scopeParts, Node.children])) fun sql => h.pure _
  | tableScan table columns =>
    rw [Node.render]
    exact h.bind h.nextName fun name => h.pure _
  | arrayScan => exact render_stable_arrayScan h ih
  | filterScan input condition =>
    rw [Node.render]
    refine h.bind (ih _ (by simp [Node.scopeParts, Node.children])) fun sql => ?_
    exact h.bind (ih _ (by simp [Node.scopeParts, Node.children])) fun filter => h.pure _
  | projectScan => exact render_stable_projectScan h ih
  | aggregateScan => exact render_stable_aggregateScan h ih
  | setOperation => exact render_stable_setOperation h ih
  | orderByScan input items =>
    rw [Node.render]
    exact h.bind (ih _ (by simp [Node.scopeParts, Node.children])) fun sql => h.pure _
  | limitScan => exact render_stable_limitScan h ih
  | withScan => exact render_stable_withScan h ih
  | analyticScan => exact render_stable_analyticScan h ih hgroups
  | queryStmt columns query =>
    rw [Node.render]
    exact ih _ (by simp [Node.scopeParts, Node.children])
  | insertStmt => exact render_stable_insertStmt h ih
  | deleteStmt table condition =>
    rw [Node.render]
    refine h.bind h.nextName fun name => ?_
    exact h.bind (h.renderOption ih) fun sql => h.pure _
  | updateStmt => exact render_stable_updateStmt h ih
  | unsupported kind =>
    rw [Node.render]
    exact h.throw _

/-- A property that the steps of renderings have holds of the rendering of every tree. -/
theorem Node.render_closed (h : Render.Closed C G) (n : Node) : C String n.render := by
  induction n using Node.induction with
  | step n ih =>
    cases hn : n.isWindowCall with
    | false =>
      exact render_stable h.toStable hn (fun e he => ih e (mem_children_of_mem_scopeParts he))
        fun e he => h.grouped (ih e (mem_children_of_mem_groupParts he))
    | true =>
      cases n with
      | analyticCall => exact render_closed_analyticCall h ih
      | _ => cases hn

end

/-- What rendering can do to the state, success or not. The scope around changes in its columns
only, except between the groups of an analytic scan (`grouped`). -/
inductive State.Leads : Bool → State → State → Prop
  | refl (grouped : Bool) (s : State) : Leads grouped s s
  | trans {grouped : Bool} {s t u : State} (h : Leads grouped s t) (h' : Leads grouped t u) :
    Leads grouped s u
  | reported (grouped : Bool) (s : State) (event : Event) (h : event.path? = none) :
    Leads grouped s { s with log := s.log ++ [event] }
  | named (grouped : Bool) (s : State) (name : String) (cursor : Cursor)
    (h : s.cursor.next? = some (name, cursor)) :
    Leads grouped s
      { s with cursor := cursor, log := s.log ++ [.nameResolved s.cursor.index name] }
  | computed (grouped : Bool) (s : State) (name sql : String) :
    Leads grouped s { s with pending := s.pending.insert name sql }
  | columnScope {grouped : Bool} {s t : State} (h : Leads grouped { s with pending := ∅ } t) :
    Leads grouped s { t with pending := s.pending }
  | noted (grouped : Bool) (s : State) (scope : AnalyticScope) (sql : String)
    (h : s.analytic = some scope) :
    Leads grouped s { s with analytic := some (scope.addColumn sql) }
  | opened (s : State) (scope : AnalyticScope) (group : CallGroup) (h : s.analytic = some scope) :
    Leads true s { s with analytic := some (openGroup group scope) }
  | analyticScope {s t : State} (grouped : Bool) (h : Leads true { s with analytic := some {} } t) :
    Leads grouped s { t with analytic := s.analytic }

theorem State.Leads.toGrouped {grouped : Bool} {s t : State} (h : s.Leads grouped t) :
    s.Leads true t := by
  induction h with
  | refl _ s => exact .refl _ s
  | trans _ _ ih ih' => exact .trans ih ih'
  | reported _ s event h => exact .reported _ s event h
  | named _ s name cursor h => exact .named _ s name cursor h
  | computed _ s name sql => exact .computed _ s name sql
  | columnScope _ ih => exact .columnScope ih
  | noted _ s scope sql h => exact .noted _ s scope sql h
  | opened s scope group h => exact .opened s scope group h
  | analyticScope _ h _ => exact .analyticScope _ h

namespace Render

variable {α β : Type}

def after (x : Render α) (settings : Settings) (s : State) : State :=
  match x settings s with
  | .ok _ final | .error _ final => final

theorem after_of_run {x : Render α} {settings : Settings} {s final : State} {a : α}
    (h : x.run settings s = .ok a final) : x.after settings s = final := by
  unfold run at h
  unfold after
  rw [h]

theorem after_bind (x : Render α) (f : α → Render β) (settings : Settings) (s : State) :
    (x >>= f).after settings s =
      match x settings s with
      | .ok a s' => (f a).after settings s'
      | .error _ s' => s' := by
  unfold after
  rw [bind_apply]
  cases x settings s <;> rfl

theorem after_bind_of {R : State → State → Prop} (trans : ∀ {s t u}, R s t → R t u → R s u)
    {x : Render α} {f : α → Render β} {settings : Settings} (hx : ∀ s, R s (x.after settings s))
    (hf : ∀ a s, R s ((f a).after settings s)) (s : State) :
    R s ((x >>= f).after settings s) := by
  have hx := hx s
  rw [after_bind]
  unfold after at hx
  cases hrun : x settings s with
  | error e s' =>
    rw [hrun] at hx
    exact hx
  | ok a s' =>
    rw [hrun] at hx
    exact trans hx (hf a s')

theorem after_columnScope (x : Render α) (settings : Settings) (s : State) :
    (columnScope x).after settings s =
      { x.after settings { s with pending := ∅ } with pending := s.pending } := by
  unfold after
  rw [columnScope_apply]
  cases x settings { s with pending := ∅ } <;> rfl

theorem after_analyticScope (x : Render α) (settings : Settings) (s : State) :
    (analyticScope x).after settings s =
      { x.after settings { s with analytic := some {} } with analytic := s.analytic } := by
  unfold after
  rw [analyticScope_apply]
  cases x settings { s with analytic := some {} } <;> rfl

theorem after_modifyScope (f : AnalyticScope → AnalyticScope) (settings : Settings) (s : State) :
    (modifyScope f).after settings s =
      match s.analytic with
      | some scope => { s with analytic := some (f scope) }
      | none => s := by
  unfold after
  rw [modifyScope_apply]
  cases s.analytic <;> rfl

def Moves (grouped : Bool) (x : Render α) : Prop :=
  ∀ settings s, State.Leads grouped s (x.after settings s)

theorem Moves.bind {grouped : Bool} {x : Render α} {f : α → Render β} (hx : x.Moves grouped)
    (hf : ∀ a, (f a).Moves grouped) : (x >>= f).Moves grouped := fun settings =>
  after_bind_of .trans (hx settings) fun a => hf a settings

theorem moves_closed (grouped : Bool) :
    Closed (fun _ x => x.Moves grouped) (fun _ x => x.Moves true) where
  pure _ _ s := .refl _ s
  bind := Moves.bind
  throw _ _ s := .refl _ s
  read _ s := .refl _ s
  report event h _ s := .reported _ s event h
  nextName settings s := by
    unfold after
    rw [nextName_apply]
    cases h : s.cursor.next? with
    | none => exact .refl _ s
    | some next => exact .named _ s next.1 next.2 h
  addPending column _ _ s := .computed _ s column.name _
  columnScope hx settings s := by
    rw [after_columnScope]
    exact .columnScope (hx settings _)
  currentScope settings s := by
    unfold after
    rw [currentScope_apply]
    cases s.analytic <;> exact .refl _ s
  addColumn sql settings s := by
    rw [after_modifyScope]
    cases h : s.analytic with
    | none => exact .refl _ s
    | some scope => exact .noted _ s scope sql h
  grouped hx settings s := (hx settings s).toGrouped
  groupBind := Moves.bind
  openGroup group settings s := by
    rw [after_modifyScope]
    cases h : s.analytic with
    | none => exact .refl _ s
    | some scope => exact .opened s scope group h
  analyticScope hx settings s := by
    rw [after_analyticScope]
    exact .analyticScope _ (hx settings _)

end Render

/-- Rendering a tree does to the state what steps can do, outside the groups of an analytic scan. -/
theorem Node.render_leads (n : Node) (settings : Settings) (s : State) :
    s.Leads false (n.render.after settings s) :=
  n.render_closed (moves_closed false) settings s

end ResolvedSql
