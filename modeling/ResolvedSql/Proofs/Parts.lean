import ResolvedSql.Tree.Basic
set_option autoImplicit false

namespace ResolvedSql

def Frame.offsets (f : Frame) : List Node :=
  (f.first.bind (·.offset)).toList ++ (f.last.bind (·.offset)).toList

/-- The nodes directly below a node, whether or not they are ever rendered. -/
def Node.children : Node → List Node
  | .literal _ _ | .parameter _ _ _ | .columnRef _ | .argumentRef _ _ | .columnDefault | .singleRow
  | .tableScan _ _ | .withRef _ | .unsupported _ => []
  | .call _ arguments _ => arguments
  | .aggregateCall _ arguments _ _ _ limit => arguments ++ limit.toList
  | .analyticCall _ arguments _ _ frame => arguments ++ (frame.map Frame.offsets).getD []
  | .structField operand _ _ => [operand]
  | .subquery _ query _ => [query]
  | .arrayScan input array _ => input.toList ++ [array]
  | .filterScan input condition => [input, condition]
  | .projectScan _ computed input => computed.map (·.expr) ++ [input]
  | .aggregateScan _ input keys aggregates =>
    aggregates.map (·.expr) ++ keys.map (·.expr) ++ [input]
  | .setOperation _ branches => branches.map (·.scan)
  | .orderByScan input _ => [input]
  | .limitScan input limit offset => input :: limit :: offset.toList
  | .withScan entries query _ => entries.map (·.query) ++ [query]
  | .analyticScan _ input groups => input :: groups.flatMap fun g => g.calls.map (·.expr)
  | .queryStmt _ query => [query]
  | .insertStmt _ _ rows query => rows.flatten ++ query.toList
  | .deleteStmt _ condition => condition.toList
  | .updateStmt _ assignments condition => assignments.map (·.value) ++ condition.toList

theorem sizeOf_lt_of_mem_map {α : Type} [SizeOf α] {f : α → Node}
    (hf : ∀ a, sizeOf (f a) < sizeOf a) {c : Node} {as : List α} (h : c ∈ as.map f) :
    sizeOf c < sizeOf as := by
  obtain ⟨a, ha, rfl⟩ := List.mem_map.1 h
  exact Nat.lt_trans (hf a) (List.sizeOf_lt_of_mem ha)

theorem sizeOf_lt_of_mem_toList {c : Node} {o : Option Node} (h : c ∈ o.toList) :
    sizeOf c < sizeOf o := by
  obtain rfl := Option.mem_toList.1 h
  simp only [Option.some.sizeOf_spec]
  omega

theorem ComputedColumn.sizeOf_expr_lt (c : ComputedColumn) : sizeOf c.expr < sizeOf c := by
  cases c
  simp only [ComputedColumn.mk.sizeOf_spec]
  omega

theorem SetBranch.sizeOf_scan_lt (b : SetBranch) : sizeOf b.scan < sizeOf b := by
  cases b
  simp only [SetBranch.mk.sizeOf_spec]
  omega

theorem NamedQuery.sizeOf_query_lt (q : NamedQuery) : sizeOf q.query < sizeOf q := by
  cases q
  simp only [NamedQuery.mk.sizeOf_spec]
  omega

theorem Assignment.sizeOf_value_lt (a : Assignment) : sizeOf a.value < sizeOf a := by
  cases a
  simp only [Assignment.mk.sizeOf_spec]
  omega

theorem Boundary.sizeOf_offset_lt {c : Node} {o : Option Boundary}
    (h : c ∈ (o.bind (·.offset)).toList) : sizeOf c < sizeOf o := by
  cases o with
  | none => simp at h
  | some b =>
    obtain ⟨code, offset⟩ := b
    have hoffset : sizeOf c < sizeOf offset := sizeOf_lt_of_mem_toList h
    simp only [Option.some.sizeOf_spec, Boundary.mk.sizeOf_spec]
    omega

theorem Frame.sizeOf_offset_lt {c : Node} {o : Option Frame}
    (h : c ∈ (o.map Frame.offsets).getD []) : sizeOf c < sizeOf o := by
  cases o with
  | none => simp at h
  | some f =>
    obtain ⟨unit, first, last⟩ := f
    simp only [Option.map_some, Option.getD_some, Frame.offsets, List.mem_append] at h
    simp only [Option.some.sizeOf_spec, Frame.mk.sizeOf_spec]
    rcases h with h | h
    · have := Boundary.sizeOf_offset_lt h
      omega
    · have := Boundary.sizeOf_offset_lt h
      omega

theorem CallGroup.sizeOf_expr_lt {c : Node} {gs : List CallGroup}
    (h : c ∈ gs.flatMap fun g => g.calls.map (·.expr)) : sizeOf c < sizeOf gs := by
  obtain ⟨g, hg, hc⟩ := List.mem_flatMap.1 h
  have hc := sizeOf_lt_of_mem_map ComputedColumn.sizeOf_expr_lt hc
  have hg := List.sizeOf_lt_of_mem hg
  cases g
  simp only [CallGroup.mk.sizeOf_spec] at *
  omega

theorem sizeOf_lt_of_mem_flatten {c : Node} {rows : List (List Node)} (h : c ∈ rows.flatten) :
    sizeOf c < sizeOf rows := by
  obtain ⟨row, hr, hc⟩ := List.mem_flatten.1 h
  exact Nat.lt_trans (List.sizeOf_lt_of_mem hc) (List.sizeOf_lt_of_mem hr)

theorem Node.sizeOf_lt_of_mem_children {c n : Node} (h : c ∈ n.children) : sizeOf c < sizeOf n := by
  have hlist := @List.sizeOf_lt_of_mem Node
  have hoption := @sizeOf_lt_of_mem_toList c
  have hcolumns := @sizeOf_lt_of_mem_map ComputedColumn _ _ ComputedColumn.sizeOf_expr_lt c
  have hbranches := @sizeOf_lt_of_mem_map SetBranch _ _ SetBranch.sizeOf_scan_lt c
  have hqueries := @sizeOf_lt_of_mem_map NamedQuery _ _ NamedQuery.sizeOf_query_lt c
  have hassignments := @sizeOf_lt_of_mem_map Assignment _ _ Assignment.sizeOf_value_lt c
  have hframe := @Frame.sizeOf_offset_lt c
  have hgroups := @CallGroup.sizeOf_expr_lt c
  have hrows := @sizeOf_lt_of_mem_flatten c
  cases n <;>
    simp only [Node.children, List.mem_append, List.mem_cons, List.not_mem_nil, or_false] at h
  all_goals grind

theorem Node.induction {P : Node → Prop} (step : ∀ n : Node, (∀ c ∈ n.children, P c) → P n)
    (n : Node) : P n :=
  step n fun c _ => Node.induction step c
termination_by sizeOf n
decreasing_by exact Node.sizeOf_lt_of_mem_children ‹_›

inductive Node.Everywhere (P : Node → Prop) : Node → Prop
  | intro (n : Node) (here : P n) (below : ∀ c ∈ n.children, Everywhere P c) : Everywhere P n

theorem Node.Everywhere.here {P : Node → Prop} {n : Node} (h : n.Everywhere P) : P n := by
  cases h with
  | intro _ here below => exact here

theorem Node.Everywhere.children {P : Node → Prop} {n : Node} (h : n.Everywhere P) :
    ∀ c ∈ n.children, c.Everywhere P := by
  cases h with
  | intro _ here below => exact below

theorem Node.Everywhere.of_forall {P : Node → Prop} (h : ∀ n, P n) (n : Node) : n.Everywhere P := by
  induction n using Node.induction with
  | step n ih => exact .intro n (h n) ih

theorem Node.Everywhere.imp {P Q : Node → Prop} {n : Node} (h : n.Everywhere P)
    (hpq : ∀ m, P m → Q m) : n.Everywhere Q := by
  induction h with
  | intro n here _ ih => exact .intro n (hpq n here) ih

def Node.all (test : Node → Bool) (n : Node) : Bool :=
  test n && n.children.attach.all fun c => c.1.all test
termination_by sizeOf n
decreasing_by exact Node.sizeOf_lt_of_mem_children c.2

theorem Node.all_iff (test : Node → Bool) (n : Node) :
    n.all test = true ↔ n.Everywhere fun m => test m = true := by
  induction n using Node.induction with
  | step n ih =>
    rw [Node.all, Bool.and_eq_true, List.all_eq_true]
    constructor
    · rintro ⟨here, below⟩
      exact .intro n here fun c hc => (ih c hc).1 (below ⟨c, hc⟩ (List.mem_attach _ _))
    · intro h
      exact ⟨h.here, fun c _ => (ih c.1 c.2).2 (h.children c.1 c.2)⟩

instance (P : Node → Prop) [DecidablePred P] (n : Node) : Decidable (n.Everywhere P) :=
  decidable_of_iff (n.all fun m => decide (P m)) <| by simp [Node.all_iff]

end ResolvedSql
