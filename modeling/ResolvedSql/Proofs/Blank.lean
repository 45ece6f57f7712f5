import ResolvedSql.Proofs.Rendering
set_option autoImplicit false

namespace ResolvedSql

mutual
def Value.blank : Value → Value
  | .string _ => .string ""
  | .array items => .array (Value.blankItems items)
  | .struct fields => .struct (Value.blankFields fields)
  | v => v
def Value.blankItems : List Value → List Value
  | [] => []
  | v :: r => v.blank :: Value.blankItems r
def Value.blankFields : List ValueField → List ValueField
  | [] => []
  | ⟨name, v⟩ :: r => ⟨name, v.blank⟩ :: Value.blankFields r
end

def Node.blank : Node → Node
  | .literal value type => .literal value.blank type
  | .parameter name position type => .parameter name position type
  | .columnRef column => .columnRef column
  | .argumentRef name type => .argumentRef name type
  | .call function arguments type => .call function (arguments.map fun e => e.blank) type
  | .aggregateCall function arguments type distinct orderBy limit =>
    .aggregateCall function (arguments.map fun e => e.blank) type distinct orderBy
      (match limit with
      | none => none
      | some e => some e.blank)
  | .analyticCall function arguments type distinct frame =>
    .analyticCall function (arguments.map fun e => e.blank) type distinct
      (match frame with
      | none => none
      | some ⟨unit, first, last⟩ => some ⟨unit,
        (match first with
        | none => none
        | some ⟨code, offset⟩ => some ⟨code, match offset with
          | none => none
          | some e => some e.blank⟩),
        (match last with
        | none => none
        | some ⟨code, offset⟩ => some ⟨code, match offset with
          | none => none
          | some e => some e.blank⟩)⟩)
  | .structField operand index type => .structField operand.blank index type
  | .subquery kind query type => .subquery kind query.blank type
  | .columnDefault => .columnDefault
  | .singleRow => .singleRow
  | .tableScan table columns => .tableScan table columns
  | .arrayScan input array element =>
    .arrayScan (match input with
      | none => none
      | some e => some e.blank) array.blank element
  | .filterScan input condition => .filterScan input.blank condition.blank
  | .projectScan columns computed input =>
    .projectScan columns (computed.map fun c => ⟨c.column, c.expr.blank⟩) input.blank
  | .aggregateScan columns input keys aggregates =>
    .aggregateScan columns input.blank (keys.map fun c => ⟨c.column, c.expr.blank⟩)
      (aggregates.map fun c => ⟨c.column, c.expr.blank⟩)
  | .setOperation code branches =>
    .setOperation code (branches.map fun b => ⟨b.scan.blank, b.columns⟩)
  | .orderByScan input items => .orderByScan input.blank items
  | .limitScan input limit offset =>
    .limitScan input.blank limit.blank (match offset with
      | none => none
      | some e => some e.blank)
  | .withScan entries query recursive =>
    .withScan (entries.map fun e => ⟨e.name, e.query.blank⟩) query.blank recursive
  | .withRef name => .withRef name
  | .analyticScan columns input groups =>
    .analyticScan columns input.blank (groups.map fun g =>
      ⟨g.partition, g.order, g.calls.map fun c => ⟨c.column, c.expr.blank⟩⟩)
  | .queryStmt columns query => .queryStmt columns query.blank
  | .insertStmt table columns rows query =>
    .insertStmt table columns (rows.map fun row => row.map fun e => e.blank) (match query with
      | none => none
      | some e => some e.blank)
  | .deleteStmt table condition =>
    .deleteStmt table (match condition with
      | none => none
      | some e => some e.blank)
  | .updateStmt table assignments condition =>
    .updateStmt table (assignments.map fun a => ⟨a.target, a.value.blank⟩) (match condition with
      | none => none
      | some e => some e.blank)
  | .unsupported kind => .unsupported kind
termination_by n => sizeOf n
decreasing_by
  all_goals
    apply Node.sizeOf_lt_of_mem_children
    simp only [Node.children]
    grind [List.mem_flatten, Frame.offsets]

theorem Route.list_congr {γ : Type} {t u : γ → Position → Route} {xs : List γ}
    (h : ∀ x ∈ xs, ∀ q, t x q = u x q) (p : Position) (j : Nat) :
    Route.list p j (xs.map t) = Route.list p j (xs.map u) := by
  rw [List.map_congr_left fun x hx => funext (h x hx)]

theorem Route.append_congr {r r' s s' : Route} (h : r = r') (h' : s = s') : r ++ s = r' ++ s' := by
  rw [h, h']

section

open Route

variable {f : Nat → Bool}

theorem Node.route_blank_aggregateCall {function : String} {arguments : List Node} {type : SqlType}
    {distinct : Bool} {orderBy : List OrderItem} {limit : Option Node}
    (ih : ∀ e ∈ (Node.aggregateCall function arguments type distinct orderBy limit).children,
      ∀ p, e.blank.route f p = e.route f p)
    (p : Position) :
    (Node.aggregateCall function arguments type distinct orderBy limit).blank.route f p =
      (Node.aggregateCall function arguments type distinct orderBy limit).route f p := by
  simp only [Node.children, List.mem_append, Option.mem_toList] at ih
  rw [Node.blank.eq_def, Node.route.eq_def, Node.route.eq_def]
  simp only [List.map_map]
  refine append_congr (list_congr (fun e he => ih e (.inl he)) _ _) ?_
  cases limit with
  | none => rfl
  | some e => exact congrArg (Route.call _ _ _) (ih e (.inr rfl) _)

theorem Node.route_blank_analyticCall {function : String} {arguments : List Node} {type : SqlType}
    {distinct : Bool} {frame : Option Frame}
    (ih : ∀ e ∈ (Node.analyticCall function arguments type distinct frame).children,
      ∀ p, e.blank.route f p = e.route f p)
    (p : Position) :
    (Node.analyticCall function arguments type distinct frame).blank.route f p =
      (Node.analyticCall function arguments type distinct frame).route f p := by
  simp only [Node.children, List.mem_append] at ih
  rw [Node.blank.eq_def, Node.route.eq_def, Node.route.eq_def]
  simp only [List.map_map]
  refine append_congr (list_congr (fun e he => ih e (.inl he)) _ _) ?_
  cases frame with
  | none => rfl
  | some frame =>
    obtain ⟨unit, first, last⟩ := frame
    simp only [Option.map_some, Option.getD_some, Frame.offsets, List.mem_append] at ih
    refine congrArg (Route.call _ _ _) (append_congr ?_ ?_)
    · cases first with
      | none => rfl
      | some b =>
        obtain ⟨code, offset⟩ := b
        cases offset with
        | none => rfl
        | some e => exact congrArg (Route.when _) (ih e (by simp) _)
    · cases last with
      | none => rfl
      | some b =>
        obtain ⟨code, offset⟩ := b
        cases offset with
        | none => rfl
        | some e => exact congrArg (Route.when _) (ih e (by simp) _)

theorem Node.route_blank_arrayScan {input : Option Node} {array : Node} {element : Column}
    (ih : ∀ e ∈ (Node.arrayScan input array element).children, ∀ p, e.blank.route f p = e.route f p)
    (p : Position) :
    (Node.arrayScan input array element).blank.route f p =
      (Node.arrayScan input array element).route f p := by
  rw [Node.blank.eq_def, Node.route.eq_def, Node.route.eq_def]
  refine append_congr ?_ (ih _ (by simp [Node.children]) _)
  cases input with
  | none => rfl
  | some e => exact ih e (by simp [Node.children]) _

theorem Node.route_blank_aggregateScan {columns : List Column} {input : Node}
    {keys aggregates : List ComputedColumn}
    (ih : ∀ e ∈ (Node.aggregateScan columns input keys aggregates).children,
      ∀ p, e.blank.route f p = e.route f p)
    (p : Position) :
    (Node.aggregateScan columns input keys aggregates).blank.route f p =
      (Node.aggregateScan columns input keys aggregates).route f p := by
  simp only [Node.children, List.mem_append, List.mem_map, List.mem_singleton] at ih
  rw [Node.blank, Node.route, Node.route, List.map_map, List.map_map]
  exact append_congr (append_congr
    (list_congr (fun c hc => ih _ (.inl (.inl ⟨c, hc, rfl⟩))) _ _)
    (list_congr (fun c hc => ih _ (.inl (.inr ⟨c, hc, rfl⟩))) _ _)) (ih _ (.inr rfl) _)

theorem Node.route_blank_limitScan {input limit : Node} {offset : Option Node}
    (ih : ∀ e ∈ (Node.limitScan input limit offset).children, ∀ p, e.blank.route f p = e.route f p)
    (p : Position) :
    (Node.limitScan input limit offset).blank.route f p =
      (Node.limitScan input limit offset).route f p := by
  rw [Node.blank.eq_def, Node.route.eq_def, Node.route.eq_def]
  refine append_congr (append_congr (ih _ (by simp [Node.children]) _)
    (ih _ (by simp [Node.children]) _)) ?_
  cases offset with
  | none => rfl
  | some e => exact ih e (by simp [Node.children]) _

theorem Node.route_blank_analyticScan {columns : List Column} {input : Node}
    {groups : List CallGroup}
    (ih : ∀ e ∈ (Node.analyticScan columns input groups).children,
      ∀ p, e.blank.route f p = e.route f p)
    (p : Position) :
    (Node.analyticScan columns input groups).blank.route f p =
      (Node.analyticScan columns input groups).route f p := by
  simp only [Node.children, List.mem_cons, List.mem_flatMap, List.mem_map] at ih
  rw [Node.blank, Node.route, Node.route, List.map_map]
  refine append_congr (ih _ (.inl rfl) _) (list_congr (fun g hg q => ?_) _ _)
  simp only [Function.comp_apply, List.map_map]
  exact list_congr (fun c hc => ih _ (.inr ⟨g, hg, c, hc, rfl⟩)) _ _

theorem Node.route_blank_insertStmt {table : String} {columns : List Column}
    {rows : List (List Node)} {query : Option Node}
    (ih : ∀ e ∈ (Node.insertStmt table columns rows query).children,
      ∀ p, e.blank.route f p = e.route f p)
    (p : Position) :
    (Node.insertStmt table columns rows query).blank.route f p =
      (Node.insertStmt table columns rows query).route f p := by
  simp only [Node.children, List.mem_append, List.mem_flatten, Option.mem_toList] at ih
  rw [Node.blank.eq_def, Node.route.eq_def, Node.route.eq_def]
  simp only [List.map_map]
  refine append_congr (append_congr rfl (list_congr (fun row hr q => ?_) _ _)) ?_
  · simp only [Function.comp_apply, List.map_map]
    exact list_congr (fun e he => ih e (.inl ⟨row, hr, he⟩)) _ _
  · cases query with
    | none => rfl
    | some e => exact ih e (.inr rfl) _

theorem Node.route_blank_deleteStmt {table : String} {condition : Option Node}
    (ih : ∀ e ∈ (Node.deleteStmt table condition).children, ∀ p, e.blank.route f p = e.route f p)
    (p : Position) :
    (Node.deleteStmt table condition).blank.route f p =
      (Node.deleteStmt table condition).route f p := by
  rw [Node.blank.eq_def, Node.route.eq_def, Node.route.eq_def]
  refine append_congr rfl ?_
  cases condition with
  | none => rfl
  | some e => exact ih e (by simp [Node.children]) _

theorem Node.route_blank_updateStmt {table : String} {assignments : List Assignment}
    {condition : Option Node}
    (ih : ∀ e ∈ (Node.updateStmt table assignments condition).children,
      ∀ p, e.blank.route f p = e.route f p)
    (p : Position) :
    (Node.updateStmt table assignments condition).blank.route f p =
      (Node.updateStmt table assignments condition).route f p := by
  simp only [Node.children, List.mem_append, List.mem_map, Option.mem_toList] at ih
  rw [Node.blank.eq_def, Node.route.eq_def, Node.route.eq_def]
  simp only [List.map_map]
  refine append_congr (append_congr rfl
    (list_congr (fun a ha => ih _ (.inl ⟨a, ha, rfl⟩)) _ _)) ?_
  cases condition with
  | none => rfl
  | some e => exact ih e (.inr rfl) _

theorem Node.route_blank (f : Nat → Bool) (n : Node) : ∀ p, n.blank.route f p = n.route f p := by
  induction n using Node.induction with
  | step n ih =>
    intro p
    cases n with
    | literal => rw [Node.blank, Node.route, Node.route]
    | parameter | columnRef | argumentRef | columnDefault | singleRow | withRef | unsupported
    | tableScan => rw [Node.blank]
    | call function arguments type =>
      rw [Node.blank, Node.route, Node.route, List.map_map]
      exact append_congr (list_congr (fun e he => ih e he) _ _) rfl
    | aggregateCall => exact route_blank_aggregateCall ih p
    | analyticCall => exact route_blank_analyticCall ih p
    | structField operand index type =>
      rw [Node.blank, Node.route, Node.route, ih _ (by simp [Node.children])]
    | subquery kind query type =>
      rw [Node.blank, Node.route, Node.route, ih _ (by simp [Node.children])]
    | arrayScan => exact route_blank_arrayScan ih p
    | filterScan input condition =>
      rw [Node.blank, Node.route, Node.route]
      exact append_congr (ih _ (by simp [Node.children]) _) (ih _ (by simp [Node.children]) _)
    | projectScan columns computed input =>
      simp only [Node.children, List.mem_append, List.mem_map, List.mem_singleton] at ih
      rw [Node.blank, Node.route, Node.route, List.map_map]
      exact append_congr (list_congr (fun c hc => ih _ (.inl ⟨c, hc, rfl⟩)) _ _)
        (ih _ (.inr rfl) _)
    | aggregateScan => exact route_blank_aggregateScan ih p
    | setOperation code branches =>
      rw [Node.blank, Node.route, Node.route, List.map_map]
      exact list_congr (fun b hb => ih _ (List.mem_map.2 ⟨b, hb, rfl⟩)) _ _
    | orderByScan input items =>
      rw [Node.blank, Node.route, Node.route, ih _ (by simp [Node.children])]
    | limitScan => exact route_blank_limitScan ih p
    | withScan entries query recursive =>
      simp only [Node.children, List.mem_append, List.mem_map, List.mem_singleton] at ih
      rw [Node.blank, Node.route, Node.route, List.map_map]
      exact append_congr (list_congr (fun e he => ih _ (.inl ⟨e, he, rfl⟩)) _ _)
        (ih _ (.inr rfl) _)
    | analyticScan => exact route_blank_analyticScan ih p
    | queryStmt columns query =>
      rw [Node.blank, Node.route, Node.route, ih _ (by simp [Node.children])]
    | insertStmt => exact route_blank_insertStmt ih p
    | deleteStmt => exact route_blank_deleteStmt ih p
    | updateStmt => exact route_blank_updateStmt ih p

end

theorem Node.children_blank (n : Node) : n.blank.children = n.children.map Node.blank := by
  cases n with
  | analyticCall function arguments type distinct frame =>
    rw [Node.blank.eq_def]
    rcases frame with _ | ⟨unit, _ | ⟨code, _ | first⟩, _ | ⟨code', _ | last⟩⟩ <;>
      simp [Node.children, Frame.offsets]
  | aggregateCall function arguments type distinct orderBy limit =>
    rw [Node.blank.eq_def]
    cases limit <;> simp [Node.children]
  | arrayScan input array element =>
    rw [Node.blank.eq_def]
    cases input <;> simp [Node.children]
  | limitScan input limit offset =>
    rw [Node.blank.eq_def]
    cases offset <;> simp [Node.children]
  | insertStmt table columns rows query =>
    rw [Node.blank.eq_def]
    cases query <;> simp [Node.children]
  | deleteStmt table condition =>
    rw [Node.blank.eq_def]
    cases condition <;> simp [Node.children]
  | updateStmt table assignments condition =>
    rw [Node.blank.eq_def]
    cases condition <;> simp [Node.children]
  | aggregateScan columns input keys aggregates =>
    rw [Node.blank]
    simp [Node.children, Function.comp_def]
  | analyticScan columns input groups =>
    rw [Node.blank]
    simp [Node.children, List.flatMap_map, List.map_flatMap, Function.comp_def]
  | _ =>
    rw [Node.blank]
    simp [Node.children]

theorem Node.Everywhere.blank_iff {P : Node → Prop} (hP : ∀ m : Node, P m.blank ↔ P m) (n : Node) :
    n.blank.Everywhere P ↔ n.Everywhere P := by
  induction n using Node.induction with
  | step n ih =>
    constructor
    · intro h
      refine .intro n ((hP n).1 h.here) fun c hc => (ih c hc).1 (h.children _ ?_)
      rw [n.children_blank]
      exact List.mem_map_of_mem hc
    · intro h
      refine .intro _ ((hP n).2 h.here) fun c hc => ?_
      rw [n.children_blank] at hc
      obtain ⟨d, hd, rfl⟩ := List.mem_map.1 hc
      exact (ih d hd).2 (h.children d hd)

def Statement.blank (s : Statement) : Statement := { s with root := s.root.blank }

/-- The contents of strings do not change which path names which reference. -/
theorem Statement.naming_blank (s : Statement) (settings : Settings) :
    s.blank.naming settings = s.naming settings := by
  have hvisited : s.blank.visited settings = s.visited settings :=
    congrFun (s.root.route_blank _ _) 0
  unfold naming
  rw [hvisited]
  rfl

end ResolvedSql
