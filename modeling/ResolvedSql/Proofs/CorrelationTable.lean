import ResolvedSql.Proofs.AnalyticScopes
import ResolvedSql.Proofs.WindowCalls
/-!
The table that a window call reads again to find its row. The last column that names a table wins:
one among the arguments of the call itself, or else one among the columns of the groups up to its
own. What other calls have for arguments, and what scans are nested in arguments, plays no part. A
call without such a column fails before its function takes a name.
-/
set_option autoImplicit false

namespace ResolvedSql

open Text Render

def Column.owner? (c : Column) : Option String :=
  if c.tableName = "" then none else some c.tableName

def Node.column? : Node → Option Column
  | .columnRef column => some column
  | _ => none

/-- The table of the last column that names one. -/
def lastOwner (columns : List Column) : Option String := (columns.filterMap Column.owner?).getLast?

/-- The table for a call with these arguments, in group number `i`. -/
def CallGroup.correlation (groups : List CallGroup) (i : Nat) (arguments : List Node) :
    Option String :=
  (lastOwner (arguments.filterMap Node.column?)).or
    (lastOwner ((groups.take (i + 1)).flatMap columns))

theorem lastOwner_append (as bs : List Column) :
    lastOwner (as ++ bs) = (lastOwner bs).or (lastOwner as) := by
  rw [lastOwner, List.filterMap_append, List.getLast?_append]
  rfl

theorem lastOwner_singleton (c : Column) : lastOwner [c] = c.owner? := by
  cases h : c.owner? <;> simp [lastOwner, h]

theorem ownerOr_eq (table : Option String) (c : Column) : ownerOr table c = c.owner?.or table := by
  unfold ownerOr Column.owner?
  split <;> rfl

theorem foldl_ownerOr (columns : List Column) (table : Option String) :
    columns.foldl ownerOr table = (lastOwner columns).or table := by
  induction columns generalizing table with
  | nil => rfl
  | cons c r ih =>
    rw [List.foldl_cons, ih, ownerOr_eq, ← Option.or_assoc, ← lastOwner_singleton,
      ← lastOwner_append]
    rfl

theorem CallGroup.openGroup_table (g : CallGroup) (scope : AnalyticScope) :
    (openGroup g scope).table = (lastOwner g.columns).or scope.table :=
  foldl_ownerOr g.columns scope.table

theorem foldl_argumentTable (arguments : List Node) (table : Option String) :
    arguments.foldl (fun table e => argumentTable e table) table =
      (lastOwner (arguments.filterMap Node.column?)).or table := by
  rw [← foldl_ownerOr, List.foldl_filterMap]
  congr 1
  funext table e
  cases e <;> rfl

theorem eq_take_append_cons {α : Type} {as : List α} {i : Nat} {a : α} (h : as[i]? = some a) :
    as = as.take i ++ a :: as.drop (i + 1) := by
  obtain ⟨hi, rfl⟩ := List.getElem?_eq_some_iff.1 h
  rw [← List.drop_eq_getElem_cons hi, List.take_append_drop]

theorem Render.Moves.grows {α : Type} {x : Render α} (hx : x.Moves false) {settings : Settings}
    {s final : State} {a : α} {scope : AnalyticScope} (hs : s.analytic = some scope)
    (h : x.run settings s = .ok a final) :
    ∃ inner, final.analytic = some inner ∧ scope.Grows inner := by
  have hgrows := (hx settings s).scope_grows
  rw [after_of_run h, hs] at hgrows
  generalize final.analytic = last at hgrows
  cases hgrows with
  | some h => exact ⟨_, rfl, h⟩

def Node.renderNoted (e : Node) : Render String := do
  let sql ← e.render
  if !isConstant e then modifyScope (·.addColumn sql)
  return sql

theorem Node.renderArguments_eq (arguments : List Node) (table : Option String) :
    Node.renderArguments arguments table = do
      let args ← each Node.renderNoted arguments
      return (args, arguments.foldl (fun table e => argumentTable e table) table) := by
  induction arguments generalizing table with
  | nil => rfl
  | cons e es ih =>
    rw [Node.renderArguments, each, Node.renderNoted]
    simp only [ih, bind_assoc, pure_bind, List.foldl_cons]
    split <;> simp

theorem Node.renderNoted_moves (e : Node) : e.renderNoted.Moves false := by
  have hclosed := moves_closed false
  refine hclosed.bind (e.render_closed hclosed) fun sql => ?_
  split
  · exact hclosed.bind (hclosed.addColumn sql) fun _ => hclosed.pure _
  · exact hclosed.pure _

namespace CallGroup

theorem calls_moves (calls : List ComputedColumn) :
    (each ComputedColumn.render calls).Moves false := by
  rw [← ComputedColumn.renderAll_eq]
  exact (moves_closed false).computedColumns fun c _ => c.expr.render_closed (moves_closed false)

/-- The step: a group leaves its own table, or the one that was there. -/
theorem render_table {g : CallGroup} {settings : Settings} {s final : State} {sql : String}
    {scope : AnalyticScope} (hs : s.analytic = some scope)
    (h : g.render.run settings s = .ok sql final) :
    ∃ inner, final.analytic = some inner ∧ inner.table = (lastOwner g.columns).or scope.table := by
  obtain ⟨_, sqls, hscope, hcalls, -⟩ := render_run_eq_ok.1 h
  obtain rfl := Option.some.inj (hscope.symm.trans hs)
  obtain ⟨inner, hinner, hgrows⟩ := (calls_moves g.calls).grows rfl hcalls
  exact ⟨inner, hinner, hgrows.table.trans (g.openGroup_table _)⟩

/-- The run: the last group that names a table wins. -/
theorem groups_table {groups : List CallGroup} {settings : Settings} {s final : State}
    {sqls : List String} {scope : AnalyticScope} (hs : s.analytic = some scope)
    (h : (each CallGroup.render groups).run settings s = .ok sqls final) :
    ∃ inner, final.analytic = some inner ∧
      inner.table = (lastOwner (groups.flatMap columns)).or scope.table := by
  induction groups generalizing s scope sqls with
  | nil =>
    obtain ⟨-, rfl⟩ := pure_run_eq_ok.1 h
    exact ⟨scope, hs, rfl⟩
  | cons g r ih =>
    obtain ⟨sql, t, more, hg, hr, -⟩ := each_cons_run_eq_ok.1 h
    obtain ⟨mid, ht, hmid⟩ := render_table hs hg
    obtain ⟨inner, hinner, htable⟩ := ih ht hr
    refine ⟨inner, hinner, ?_⟩
    rw [htable, hmid, List.flatMap_cons, lastOwner_append, Option.or_assoc]

theorem reach_scope {groups : List CallGroup} {g : CallGroup} {calls : List ComputedColumn}
    {settings : Settings} {s before : State} {scope : AnalyticScope} (hs : s.analytic = some scope)
    (h : (reach groups g calls).run settings s = .ok () before) :
    ∃ inner, before.analytic = some inner ∧ g.Opened inner ∧
      inner.table = (lastOwner ((groups ++ [g]).flatMap columns)).or scope.table := by
  obtain ⟨sqls, t, mid, front, hgroups, hmid, hcalls⟩ := reach_run_eq_ok.1 h
  obtain ⟨_, ht, htable⟩ := groups_table hs hgroups
  obtain rfl := Option.some.inj (hmid.symm.trans ht)
  obtain ⟨inner, hinner, hgrows⟩ := (calls_moves calls).grows rfl hcalls
  refine ⟨inner, hinner, ⟨hgrows.partition, hgrows.order⟩, ?_⟩
  rw [hgrows.table, openGroup_table, htable, List.flatMap_append, lastOwner_append,
    List.flatMap_singleton, Option.or_assoc]

/-- A call that fails when it is reached fails the scan. -/
theorem reach_run_eq_error {columns : List Column} {input : Node} {groups : List CallGroup}
    {g : CallGroup} {c : ComputedColumn} {i j : Nat} {settings : Settings}
    {s start before final : State} {text : String} {e : Error} (hg : groups[i]? = some g)
    (hc : g.calls[j]? = some c) (hinput : input.render.run settings s = .ok text start)
    (hreach : (reach (groups.take i) g (g.calls.take j)).run settings
      { start with analytic := some {} } = .ok () before)
    (h : c.expr.render.run settings before = .error e final) :
    (Node.analyticScan columns input groups).render.run settings s =
      .error e { final with analytic := start.analytic } := by
  obtain ⟨sqls, t, scope, front, hgroups, hscope, hcalls⟩ := reach_run_eq_ok.1 hreach
  have hcall : c.render.run settings before = .error e final := by
    obtain ⟨column, expr⟩ := c
    rw [ComputedColumn.render]
    exact bind_run_eq_error.2 (.inl h)
  have hgroup : g.render.run settings t = .error e final := by
    have hentries := each_run_eq_error (r := g.calls.drop (j + 1)) hcalls hcall
    rw [← eq_take_append_cons hc] at hentries
    obtain ⟨partition, order, calls⟩ := g
    rw [CallGroup.render, ComputedColumn.renderAll_eq,
      bind_run_of_ok (modifyScope_run_eq_ok.2 ⟨scope, hscope, rfl⟩)]
    exact bind_run_eq_error.2 (.inl hentries)
  have hall := each_run_eq_error (r := groups.drop (i + 1)) hgroups hgroup
  rw [← eq_take_append_cons hg] at hall
  rw [Node.render, CallGroup.renderAll_eq, bind_run_of_ok hinput]
  exact bind_run_eq_error.2 (.inl (analyticScope_run_eq_error hall))

end CallGroup

namespace Node

variable {function : String} {arguments : List Node} {type : SqlType} {distinct : Bool}
  {frame : Option Frame} {settings : Settings} {s t : State} {scope : AnalyticScope}
  {args : List String}

theorem renderArguments_run_eq_ok {table : Option String}
    (htable : (lastOwner (arguments.filterMap column?)).or scope.table = table)
    (harguments : (each renderNoted arguments).run settings s = .ok args t) :
    (renderArguments arguments scope.table).run settings s = .ok (args, table) t := by
  rw [renderArguments_eq, foldl_argumentTable, htable, bind_run_of_ok harguments]
  rfl

theorem analyticCall_run_eq_error (hs : s.analytic = some scope)
    (htable : (lastOwner (arguments.filterMap column?)).or scope.table = none)
    (harguments : (each renderNoted arguments).run settings s = .ok args t) :
    (analyticCall function arguments type distinct frame).render.run settings s =
      .error .noAnalyticScope t := by
  rw [Node.render, bind_run_of_ok (currentScope_run_eq_ok.2 ⟨hs, rfl⟩),
    bind_run_of_ok (renderArguments_run_eq_ok htable harguments)]
  rfl

/-- A call with a table and a name for its function has SQL if the ends of its frame have. -/
theorem analyticCall_run_eq_ok {g : CallGroup} {table name sql : String} {u final : State}
    (hs : s.analytic = some scope) (hg : g.Opened scope)
    (htable : (lastOwner (arguments.filterMap column?)).or scope.table = some table)
    (harguments : (each renderNoted arguments).run settings s = .ok args t)
    (hcallee : (resolveCallee function .window type).run settings t = .ok (.named name) u) :
    (analyticCall function arguments type distinct frame).render.run settings s = .ok sql final ↔
      ∃ frames v, (Frame.renderOption frame).run settings u = .ok frames v ∧
        final = { v with log := v.log ++ [.windowCall name table] } ∧
        sql = "( SELECT " ++ name ++ "(" ++
          commas (args ++ g.options settings.config.functionPrefix distinct ++ frames ++
            [settings.config.functionPrefix ++ "_window_rowid_string(" ++
              quoteName settings.config.rowIdColumn ++ ")"]) ++
          ") FROM " ++ quoteName table ++ " )" := by
  have hclosed := moves_closed false
  -- neither the arguments nor the name of the function touch the options of the group
  obtain ⟨inner, hinner, hopened⟩ : ∃ inner, u.analytic = some inner ∧ g.Opened inner := by
    obtain ⟨mid, ht, hmid⟩ := (hclosed.each fun e _ => e.renderNoted_moves).grows hs harguments
    obtain ⟨inner, hu, hinner⟩ := (hclosed.resolveCallee function .window type).grows ht hcallee
    exact ⟨inner, hu, (hinner.partition.trans hmid.partition).trans hg.partition,
      (hinner.order.trans hmid.order).trans hg.order⟩
  have hpair := renderArguments_run_eq_ok htable harguments
  have hcurrent {s : State} {scope : AnalyticScope} (h : s.analytic = some scope) :
      currentScope.run settings s = .ok scope s := currentScope_run_eq_ok.2 ⟨h, rfl⟩
  have hlead : functionPrefix.run settings u = .ok settings.config.functionPrefix u := rfl
  rw [Node.render, bind_run_of_ok (hcurrent hs), bind_run_of_ok hpair]
  simp only
  rw [bind_run_of_ok hcallee]
  simp only
  rw [bind_run_of_ok hlead, bind_run_of_ok (hcurrent hinner), bind_run_eq_ok]
  simp only [← hopened.windowCallText]
  constructor
  · rintro ⟨frames, v, hframes, h⟩
    cases h
    exact ⟨frames, v, hframes, rfl, rfl⟩
  · rintro ⟨frames, v, hframes, rfl, rfl⟩
    exact ⟨frames, v, hframes, rfl⟩

/-- A window call that is reached, with its arguments rendered up to `t`. It reads the table of the
last column that names one, among its own arguments or else among the columns of the groups up to
its own. If no column does, the scan fails there, and no name was taken for the function. -/
theorem analyticScan_correlates (columns : List Column) {input : Node} {groups : List CallGroup}
    {start before : State} {text : String} {i j : Nat} {g : CallGroup} {column : Column}
    (hinput : input.render.run settings s = .ok text start) (hg : groups[i]? = some g)
    (hcall : g.calls[j]? = some ⟨column, .analyticCall function arguments type distinct frame⟩)
    (hreach : (CallGroup.reach (groups.take i) g (g.calls.take j)).run settings
      { start with analytic := some {} } = .ok () before)
    (harguments : (each renderNoted arguments).run settings before = .ok args t) :
    (∀ table, CallGroup.correlation groups i arguments = some table → ∀ name u,
      (resolveCallee function .window type).run settings t = .ok (.named name) u → ∀ sql final,
        (analyticCall function arguments type distinct frame).render.run settings before =
          .ok sql final ↔
        ∃ frames v, (Frame.renderOption frame).run settings u = .ok frames v ∧
          final = { v with log := v.log ++ [.windowCall name table] } ∧
          sql = "( SELECT " ++ name ++ "(" ++
            commas (args ++ g.options settings.config.functionPrefix distinct ++ frames ++
              [settings.config.functionPrefix ++ "_window_rowid_string(" ++
                quoteName settings.config.rowIdColumn ++ ")"]) ++
            ") FROM " ++ quoteName table ++ " )") ∧
    (CallGroup.correlation groups i arguments = none →
      (analyticCall function arguments type distinct frame).render.run settings before =
        .error .noAnalyticScope t ∧
      (analyticScan columns input groups).render.run settings s =
        .error .noAnalyticScope { t with analytic := start.analytic }) := by
  obtain ⟨scope, hscope, hopened, htable⟩ := CallGroup.reach_scope rfl hreach
  have hcorrelation : (lastOwner (arguments.filterMap column?)).or scope.table =
      CallGroup.correlation groups i arguments := by
    rw [htable, CallGroup.correlation, List.take_add_one, hg]
    exact congrArg _ (Option.or_none ..)
  constructor
  · intro table hsome name u hcallee sql final
    exact analyticCall_run_eq_ok hscope hopened (hcorrelation.trans hsome) harguments hcallee
  · intro hnone
    have hfails : (analyticCall function arguments type distinct frame).render.run settings before =
        .error .noAnalyticScope t :=
      analyticCall_run_eq_error hscope (hcorrelation.trans hnone) harguments
    exact ⟨hfails, CallGroup.reach_run_eq_error hg hcall hinput hreach hfails⟩

def rankOfTable : Node :=
  .subquery .scalar (.analyticScan [] .singleRow [⟨some [int "v" "u"], none,
    [⟨int "k" "", .analyticCall "rank" [.columnRef (int "w" "u")] (.scalar .int64) false none⟩]⟩])
    (.scalar .int64)

def userCall : Node := .analyticCall "f" [rankOfTable] (.scalar .int64) false none

def callGroup (partition : Option (List Column)) : CallGroup where
  partition := partition
  order := none
  calls := [⟨int "n" "", userCall⟩]

def beforeCalls : State := { cursor := .start [] [["f"], ["f"]], analytic := some {} }

/-- Where the call is reached in a group without columns, and where its argument is behind. -/
def atCall (groups : List CallGroup) : State :=
  (CallGroup.reach groups (callGroup none) []).after {} beforeCalls

def pastArgument (groups : List CallGroup) : State :=
  (each renderNoted [rankOfTable]).after {} (atCall groups)

/-- The call in the second group reads the table of the first group. With the second group alone,
the scan fails, and `f` has taken no name. -/
theorem userCall_correlates :
    (∃ args u final,
      (CallGroup.reach [callGroup (some [int "x" "t"])] (callGroup none) []).run {} beforeCalls =
        .ok () (atCall [callGroup (some [int "x" "t"])]) ∧
      (each renderNoted [rankOfTable]).run {} (atCall [callGroup (some [int "x" "t"])]) =
        .ok args (pastArgument [callGroup (some [int "x" "t"])]) ∧
      (resolveCallee "f" .window (.scalar .int64)).run {}
        (pastArgument [callGroup (some [int "x" "t"])]) = .ok (.named "f") u ∧
      userCall.render.run {} (atCall [callGroup (some [int "x" "t"])]) =
        .ok ("( SELECT f(" ++ commas (args ++ ["bqlite_window_rowid_string(`rowid`)"]) ++
          ") FROM `t` )") final) ∧
    (userCall.render {}).run' (atCall [callGroup (some [int "x" "t"])]) =
      some ("( SELECT f(FROM ( SELECT *, ROW_NUMBER() OVER() AS `rowid`  ) ORDER BY `v`,`w`," ++
        "bqlite_window_rowid_string(`rowid`)) FROM `t` )") ∧
    (analyticScan [] .singleRow [callGroup none]).render.run {} beforeCalls =
      .error .noAnalyticScope { pastArgument [] with analytic := some {} } ∧
    (pastArgument []).cursor.index = 0 := by
  have hinput : singleRow.render.run {} beforeCalls = .ok "" beforeCalls := rfl
  have hcall : (callGroup none).calls[0]? = some ⟨int "n" "", userCall⟩ := rfl
  refine ⟨?_, by decide +kernel, ?_⟩
  · have hg : [callGroup (some [int "x" "t"]), callGroup none][1]? = some (callGroup none) := rfl
    have hreach : (CallGroup.reach [callGroup (some [int "x" "t"])] (callGroup none) []).run {}
        beforeCalls = .ok () (atCall [callGroup (some [int "x" "t"])]) := rfl
    obtain ⟨args, hargs⟩ : ∃ args, (each renderNoted [rankOfTable]).run {}
        (atCall [callGroup (some [int "x" "t"])]) =
          .ok args (pastArgument [callGroup (some [int "x" "t"])]) := ⟨_, rfl⟩
    obtain ⟨u, hcallee⟩ : ∃ u, (resolveCallee "f" .window (.scalar .int64)).run {}
        (pastArgument [callGroup (some [int "x" "t"])]) = .ok (.named "f") u := ⟨_, rfl⟩
    have hframe : (Frame.renderOption none).run {} u = .ok [] u := rfl
    obtain ⟨hcorrelates, -⟩ := analyticScan_correlates [] hinput hg hcall hreach hargs
    refine ⟨args, u, _, hreach, hargs, hcallee,
      (hcorrelates "t" rfl "f" u hcallee _ _).2 ⟨[], u, hframe, rfl, ?_⟩⟩
    have hoptions : (callGroup none).options "bqlite" false = [] := rfl
    have hrowId : "bqlite" ++ "_window_rowid_string(" ++ quoteName "rowid" ++ ")" =
        "bqlite_window_rowid_string(`rowid`)" := by decide +kernel
    have htable : quoteName "t" = "`t`" := by decide +kernel
    simp only [hoptions, hrowId, htable, List.append_nil]
    exact String.toList_inj.1 (by simp)
  · have hg : [callGroup none][0]? = some (callGroup none) := rfl
    have hreach : (CallGroup.reach [] (callGroup none) []).run {} beforeCalls =
        .ok () (atCall []) := rfl
    have hargs : (each renderNoted [rankOfTable]).run {} (atCall []) =
        .ok _ (pastArgument []) := rfl
    obtain ⟨-, hfails⟩ := analyticScan_correlates [] hinput hg hcall hreach hargs
    exact ⟨(hfails rfl).2, rfl⟩

end Node
end ResolvedSql
