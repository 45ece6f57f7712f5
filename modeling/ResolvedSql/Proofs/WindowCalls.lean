import ResolvedSql.Proofs.DerivedTables
import ResolvedSql.Proofs.WindowScope
set_option autoImplicit false

namespace ResolvedSql

open Text Render

/-- The offset that a frame end shows when it is rendered from `s` to `t`: zero for a kind that has
none. -/
def Boundary.Offset (settings : Settings) (b : Boundary) (s : State) (sql : String) (t : State) :
    Prop :=
  ∃ kind, BoundaryKind.ofCode b.code = .ok kind ∧
    if kind.hasOffset then ∃ e, b.offset = some e ∧ e.render.run settings s = .ok sql t
    else sql = "0" ∧ s = t

def Boundary.Options (settings : Settings) (edge : String) (o : Option Boundary) (s : State)
    (options : List String) (t : State) : Prop :=
  match o with
  | none => options = [] ∧ s = t
  | some b => ∃ sql, b.Offset settings s sql t ∧
    options = [settings.config.functionPrefix ++ "_window_boundary_" ++ edge ++ "_string(" ++
      codeText b.code ++ ", " ++ sql ++ ")"]

def Frame.Options (settings : Settings) (o : Option Frame) (s : State) (options : List String)
    (t : State) : Prop :=
  match o with
  | none => options = [] ∧ s = t
  | some f => ∃ starts mid ends, Boundary.Options settings "start" f.first s starts mid ∧
    Boundary.Options settings "end" f.last mid ends t ∧
    options = (settings.config.functionPrefix ++ "_window_frame_unit_string(" ++ codeText f.unit ++
      ")") :: (starts ++ ends)

theorem optionCall_singleton (lead name arg : String) :
    optionCall lead name [arg] = lead ++ "_" ++ name ++ "_string(" ++ arg ++ ")" := rfl

theorem optionCall_pair (lead name arg arg' : String) :
    optionCall lead name [arg, arg'] =
      lead ++ "_" ++ name ++ "_string(" ++ arg ++ ", " ++ arg' ++ ")" :=
  String.toList_inj.1 (by simp [optionCall, separated])

theorem Boundary.offset_of_run {edge : String} {b : Boundary} {settings : Settings}
    {s final : State} {option : String} (h : (b.render edge).run settings s = .ok option final) :
    ∃ sql, b.Offset settings s sql final ∧
      option = settings.config.functionPrefix ++ "_window_boundary_" ++ edge ++ "_string(" ++
        codeText b.code ++ ", " ++ sql ++ ")" := by
  have htext (code sql : String) :
      optionCall settings.config.functionPrefix ("window_boundary_" ++ edge) [code, sql] =
        settings.config.functionPrefix ++ "_window_boundary_" ++ edge ++ "_string(" ++ code ++
          ", " ++ sql ++ ")" := String.toList_inj.1 (by simp [optionCall_pair])
  obtain ⟨code, offset⟩ := b
  rw [Boundary.render] at h
  obtain ⟨kind, _, hdemand, h⟩ := bind_run_eq_ok.1 h
  obtain ⟨hkind, rfl⟩ := demand_run_eq_ok.1 hdemand
  obtain ⟨lead, _, hlead, h⟩ := bind_run_eq_ok.1 h
  cases hlead
  have hcode : code = kind.code := BoundaryKind.eq_code_of_ofCode hkind
  simp only at h
  split at h
  · rename_i hoffset
    obtain ⟨sql, t, hsql, h⟩ := bind_run_eq_ok.1 h
    split at h
    · cases h
    · rename_i hne
      obtain ⟨rfl, rfl⟩ := pure_run_eq_ok.1 h
      refine ⟨sql, ⟨kind, hkind, ?_⟩, by rw [hcode, htext]⟩
      rw [if_pos hoffset]
      cases offset with
      | none =>
        obtain ⟨rfl, -⟩ := pure_run_eq_ok.1 hsql
        exact (hne rfl).elim
      | some e =>
        rw [Node.renderOption] at hsql
        exact ⟨e, rfl, hsql⟩
  · rename_i hoffset
    obtain ⟨rfl, rfl⟩ := pure_run_eq_ok.1 h
    refine ⟨"0", ⟨kind, hkind, ?_⟩, by rw [hcode, htext]⟩
    rw [if_neg hoffset]
    exact ⟨rfl, rfl⟩

theorem Boundary.options_of_run {edge : String} {o : Option Boundary} {settings : Settings}
    {s final : State} {options : List String}
    (h : (Boundary.renderOption edge o).run settings s = .ok options final) :
    Boundary.Options settings edge o s options final := by
  cases o with
  | none =>
    rw [Boundary.renderOption] at h
    obtain ⟨rfl, rfl⟩ := pure_run_eq_ok.1 h
    exact ⟨rfl, rfl⟩
  | some b =>
    rw [Boundary.renderOption] at h
    obtain ⟨option, _, hoption, h⟩ := bind_run_eq_ok.1 h
    obtain ⟨rfl, rfl⟩ := pure_run_eq_ok.1 h
    obtain ⟨sql, hsql, rfl⟩ := Boundary.offset_of_run hoption
    exact ⟨sql, hsql, rfl⟩

theorem Frame.options_of_run {o : Option Frame} {settings : Settings} {s final : State}
    {options : List String} (h : (Frame.renderOption o).run settings s = .ok options final) :
    Frame.Options settings o s options final := by
  cases o with
  | none =>
    rw [Frame.renderOption] at h
    obtain ⟨rfl, rfl⟩ := pure_run_eq_ok.1 h
    exact ⟨rfl, rfl⟩
  | some f =>
    obtain ⟨code, first, last⟩ := f
    rw [Frame.renderOption, Frame.render] at h
    obtain ⟨unit, _, hdemand, h⟩ := bind_run_eq_ok.1 h
    obtain ⟨hunit, rfl⟩ := demand_run_eq_ok.1 hdemand
    obtain ⟨lead, _, hlead, h⟩ := bind_run_eq_ok.1 h
    cases hlead
    obtain ⟨starts, mid, hstarts, h⟩ := bind_run_eq_ok.1 h
    obtain ⟨ends, _, hends, h⟩ := bind_run_eq_ok.1 h
    obtain ⟨rfl, rfl⟩ := pure_run_eq_ok.1 h
    refine ⟨starts, mid, ends, Boundary.options_of_run hstarts, Boundary.options_of_run hends, ?_⟩
    rw [FrameUnit.eq_code_of_ofCode hunit, optionCall_singleton]
    exact congrArg (· :: _) (String.toList_inj.1 (by simp))

namespace CallGroup

def columns (g : CallGroup) : List Column :=
  g.partition.getD [] ++ (g.order.getD []).map (·.column)

/-- The options of a call in the group, before its frame. -/
def options (lead : String) (g : CallGroup) (distinct : Bool) : List String :=
  (if distinct then [lead ++ "_distinct_string()"] else []) ++
    (g.partition.getD []).map (fun c =>
      lead ++ "_window_partition_string(" ++ quoteName c.name ++ ")") ++
    (g.order.getD []).map (fun item => lead ++ "_window_order_by_string(" ++
      quoteName item.column.name ++ ", " ++ (if item.descending then "false" else "true") ++ ")")

/-- Renders what comes before a call: the groups before its own, and the calls before it. -/
def reach (groups : List CallGroup) (g : CallGroup) (calls : List ComputedColumn) :
    Render Unit := do
  let _ ← CallGroup.renderAll groups
  modifyScope (openGroup g)
  let _ ← ComputedColumn.renderAll calls
  return ()

/-- From `s` on, a window call is rendered in the group. Its arguments have the texts `args`. Unless
a body takes its place, it has the options of the group, those of its frame and the row number. -/
inductive Renders (settings : Settings) (g : CallGroup) (s : State) : Node → List String → Prop
  | inlined {function name : String} {arguments : List Node} {type : SqlType} {distinct : Bool}
    {frame : Option Frame} {args : List String} {body : FunctionBody} {t u : State}
    (harguments : (Node.renderAll arguments).run settings s = .ok args t)
    (hcallee : (resolveCallee function .window type).run settings t = .ok (.inlined name body) u) :
    Renders settings g s (.analyticCall function arguments type distinct frame) args
  | named {function name table : String} {arguments : List Node} {type : SqlType} {distinct : Bool}
    {frame : Option Frame} {args frames : List String} {t u v final : State}
    (harguments : (Node.renderAll arguments).run settings s = .ok args t)
    (hcallee : (resolveCallee function .window type).run settings t = .ok (.named name) u)
    (hframe : Frame.Options settings frame u frames v)
    (hcall : (Node.analyticCall function arguments type distinct frame).render.run settings s =
      .ok ("( SELECT " ++ name ++ "(" ++
        commas (args ++ g.options settings.config.functionPrefix distinct ++ frames ++
          [settings.config.functionPrefix ++ "_window_rowid_string(" ++
            quoteName settings.config.rowIdColumn ++ ")"]) ++
        ") FROM " ++ quoteName table ++ " )") final) :
    Renders settings g s (.analyticCall function arguments type distinct frame) args

end CallGroup

/-- The texts of arguments that rows can be sorted by: those of literals and parameters cannot. -/
def sortable : List Node → List String → List String
  | .literal _ _ :: es, _ :: sqls | .parameter _ _ _ :: es, _ :: sqls => sortable es sqls
  | _ :: es, sql :: sqls => sql :: sortable es sqls
  | _, _ => []

/-- What a call has rows sorted by, if its arguments have these texts. -/
def Node.sortedBy : Node → List String → List String
  | .analyticCall _ arguments _ _ _, args => sortable arguments args
  | _, _ => []

/-- What a group has rows sorted by, if the arguments of its calls have these texts. -/
def CallGroup.sortedBy (g : CallGroup) (texts : List (List String)) : List String :=
  g.columns.map (fun c => quoteName c.name) ++
    (List.zipWith (fun c args => c.expr.sortedBy args) g.calls texts).flatten

theorem sortable_cons (e : Node) (es : List Node) (sql : String) (sqls : List String) :
    sortable (e :: es) (sql :: sqls) =
      (if isConstant e then [] else [sql]) ++ sortable es sqls := by
  cases e <;> simp [sortable, isConstant]

theorem Node.renderArguments_cons_run {e : Node} {es : List Node} {settings : Settings}
    {s final : State} {table last : Option String} {args : List String}
    (h : (Node.renderArguments (e :: es) table).run settings s = .ok (args, last) final) :
    ∃ sql t sqls, e.render.run settings s = .ok sql t ∧ args = sql :: sqls ∧
      (Node.renderArguments es (argumentTable e table)).run settings
        (t.note (if isConstant e then [] else [sql])) = .ok (sqls, last) final := by
  rw [Node.renderArguments] at h
  obtain ⟨sql, t, hsql, h⟩ := bind_run_eq_ok.1 h
  simp only at h
  split at h
  · rename_i hsorted
    obtain ⟨_, _, hnoted, h⟩ := bind_run_eq_ok.1 h
    obtain ⟨scope, hscope, rfl⟩ := modifyScope_run_eq_ok.1 hnoted
    obtain ⟨⟨sqls, _⟩, _, hrest, h⟩ := bind_run_eq_ok.1 h
    cases h
    refine ⟨sql, t, sqls, hsql, rfl, ?_⟩
    rw [if_neg (by simpa using hsorted), State.note, hscope]
    exact hrest
  · rename_i hconstant
    obtain ⟨⟨sqls, _⟩, _, hrest, h⟩ := bind_run_eq_ok.1 h
    cases h
    refine ⟨sql, t, sqls, hsql, rfl, ?_⟩
    rw [if_pos (by simpa using hconstant), State.note_nil]
    exact hrest

theorem Node.renderArguments_run {arguments : List Node} (hplain : ∀ e ∈ arguments, e.Windowless)
    {settings : Settings} {s final : State} {table last : Option String} {args : List String}
    (h : (Node.renderArguments arguments table).run settings s = .ok (args, last) final) :
    ∃ t, (Node.renderAll arguments).run settings s = .ok args t ∧
      final = t.note (sortable arguments args) := by
  induction arguments generalizing s table args with
  | nil =>
    rw [Node.renderArguments] at h
    cases h
    exact ⟨final, rfl, final.note_nil.symm⟩
  | cons e es ih =>
    rw [List.forall_mem_cons] at hplain
    obtain ⟨sql, t, sqls, hsql, rfl, hrest⟩ := Node.renderArguments_cons_run h
    obtain ⟨_, hnoted, rfl⟩ := ih hplain.2 hrest
    -- the arguments after this one do not see whether it was noted
    rw [Node.renderAll_eq] at hnoted
    obtain ⟨u, hes, rfl⟩ :=
      (Aloof.stable.each fun e he => (hplain.2 e he).render_aloof).run_note hnoted
    refine ⟨u, ?_, ?_⟩
    · rw [Node.renderAll_eq]
      exact each_cons_run_eq_ok.2 ⟨sql, t, sqls, hsql, hes, rfl⟩
    · rw [State.note_note, sortable_cons]

/-- A window call without another one in its arguments or in the ends of its frame. -/
structure Node.IsSingleCall (e : Node) : Prop where
  here : e.isWindowCall = true
  parts : ∀ p ∈ e.children, p.Windowless

namespace CallGroup

/-- The scope has the options of the group. -/
structure Opened (g : CallGroup) (scope : AnalyticScope) : Prop where
  partition : scope.partition = (g.partition.getD []).map fun c => quoteName c.name
  order : scope.order =
    (g.order.getD []).map fun item => (quoteName item.column.name, !item.descending)

theorem opened_openGroup (g : CallGroup) (scope : AnalyticScope) :
    g.Opened (openGroup g scope) := ⟨rfl, rfl⟩

theorem Opened.windowArguments {g : CallGroup} {scope : AnalyticScope} (h : g.Opened scope)
    (lead : String) (distinct : Bool) :
    Render.windowArguments lead distinct scope = g.options lead distinct := by
  have hdistinct : optionCall lead "distinct" [] = lead ++ "_distinct_string()" :=
    String.toList_inj.1 (by simp [optionCall, separated])
  have hpartition (c : Column) : optionCall lead "window_partition" [quoteName c.name] =
      lead ++ "_window_partition_string(" ++ quoteName c.name ++ ")" :=
    String.toList_inj.1 (by simp [optionCall_singleton])
  have horder (item : OrderItem) : optionCall lead "window_order_by"
      [quoteName item.column.name, boolText (!item.descending)] =
        lead ++ "_window_order_by_string(" ++ quoteName item.column.name ++ ", " ++
          (if item.descending then "false" else "true") ++ ")" := by
    apply String.toList_inj.1
    cases item.descending <;> simp [optionCall_pair, boolText]
  rw [Render.windowArguments, h.partition, h.order, options, List.map_map, List.map_map, hdistinct]
  simp only [Function.comp_def, hpartition, horder]

theorem windowCallText_eq (name : String) (args : List String) (table : String) :
    Render.windowCallText name args table =
      "( SELECT " ++ name ++ "(" ++ commas args ++ ") FROM " ++ quoteName table ++ " )" :=
  String.toList_inj.1 (by simp [Render.windowCallText, callText])

theorem Opened.windowCallText {g : CallGroup} {scope : AnalyticScope} (h : g.Opened scope)
    (lead rowId : String) (distinct : Bool) (name : String) (args frames : List String)
    (table : String) :
    Render.windowCallText name (args ++ Render.windowArguments lead distinct scope ++ frames ++
        [optionCall lead "window_rowid" [quoteName rowId]]) table =
      "( SELECT " ++ name ++ "(" ++ commas (args ++ g.options lead distinct ++ frames ++
        [lead ++ "_window_rowid_string(" ++ quoteName rowId ++ ")"]) ++
        ") FROM " ++ quoteName table ++ " )" := by
  have hrowId : optionCall lead "window_rowid" [quoteName rowId] =
      lead ++ "_window_rowid_string(" ++ quoteName rowId ++ ")" :=
    String.toList_inj.1 (by simp [optionCall_singleton])
  rw [h.windowArguments, hrowId, windowCallText_eq]

/-- The step: one call of the group. It leaves the scope with its arguments added. -/
theorem renders_of_run {g : CallGroup} {e : Node} (he : e.IsSingleCall) {settings : Settings}
    {s final : State} {scope : AnalyticScope} {sql : String} (hs : s.analytic = some scope)
    (hg : g.Opened scope) (h : e.render.run settings s = .ok sql final) :
    ∃ args, g.Renders settings s e args ∧ final.analytic = (s.note (e.sortedBy args)).analytic := by
  cases e with
  | analyticCall function arguments type distinct frame =>
    have hparts := he.parts
    simp only [Node.children, List.mem_append] at hparts
    have hplain (e : Node) (he : e ∈ arguments) : e.Windowless := hparts e (.inl he)
    have hframe : (Frame.renderOption frame).Aloof :=
      Aloof.stable.frameOption fun e he => (hparts e (.inr he)).render_aloof
    have hcall := h
    rw [Node.render] at h
    obtain ⟨_, _, hcurrent, h⟩ := bind_run_eq_ok.1 h
    obtain ⟨-, rfl⟩ := currentScope_run_eq_ok.1 hcurrent
    obtain ⟨⟨args, table⟩, _, hnoted, h⟩ := bind_run_eq_ok.1 h
    obtain ⟨t, harguments, rfl⟩ := Node.renderArguments_run hplain hnoted
    have ht : t.analytic = s.analytic := by
      rw [Node.renderAll_eq] at harguments
      exact ((Aloof.stable.each fun e he => (hplain e he).render_aloof).run_eq_ok harguments).1
    cases table with
    | none => cases h
    | some table =>
      obtain ⟨callee, _, hresolved, h⟩ := bind_run_eq_ok.1 h
      have hresolve := Aloof.stable.resolveCallee function .window type
      obtain ⟨u, hcallee, rfl⟩ := hresolve.run_note hresolved
      have hu : u.analytic = s.analytic := (hresolve.run_eq_ok hcallee).1.trans ht
      cases callee with
      | inlined name body =>
        have hinline := Aloof.stable.inlineBody name body args
        obtain ⟨v, hv, rfl⟩ := hinline.run_note h
        refine ⟨args, .inlined harguments hcallee, State.analytic_note ?_ _⟩
        exact (hinline.run_eq_ok hv).1.trans hu
      | named name =>
        obtain ⟨lead, _, hlead, h⟩ := bind_run_eq_ok.1 h
        cases hlead
        obtain ⟨inner, _, hinner, h⟩ := bind_run_eq_ok.1 h
        obtain ⟨hinner, rfl⟩ := currentScope_run_eq_ok.1 hinner
        obtain ⟨frames, _, hframes, h⟩ := bind_run_eq_ok.1 h
        obtain ⟨v, hv, rfl⟩ := hframe.run_note hframes
        cases h
        have hopened : g.Opened inner := by
          rw [State.note, hu, hs] at hinner
          cases hinner
          exact ⟨hg.partition, hg.order⟩
        rw [hopened.windowCallText] at hcall
        refine ⟨args, .named harguments hcallee (Frame.options_of_run hv) hcall,
          State.analytic_note ?_ _⟩
        exact (hframe.run_eq_ok hv).1.trans hu
  | _ => cases he.here

theorem calls_run {g : CallGroup} {calls : List ComputedColumn}
    (hcalls : ∀ c ∈ calls, c.expr.IsSingleCall) {settings : Settings} {s final : State}
    {scope : AnalyticScope} {sqls : List String} (hs : s.analytic = some scope)
    (hg : g.Opened scope)
    (h : (each ComputedColumn.render calls).run settings s = .ok sqls final) :
    ∃ texts, final.analytic = (s.note (List.zipWith (fun c args => c.expr.sortedBy args) calls
        texts).flatten).analytic ∧
      ∀ (j : Nat) c, calls[j]? = some c → ∃ args front before, texts[j]? = some args ∧
        (each ComputedColumn.render (calls.take j)).run settings s = .ok front before ∧
        g.Renders settings before c.expr args := by
  induction calls generalizing s scope sqls with
  | nil =>
    cases h
    exact ⟨[], by rw [List.zipWith_nil_left, List.flatten_nil, State.note_nil], by simp⟩
  | cons c r ih =>
    rw [List.forall_mem_cons] at hcalls
    obtain ⟨sql, t, more, hc, hr, rfl⟩ := each_cons_run_eq_ok.1 h
    obtain ⟨u, hexpr, ht⟩ := ComputedColumn.render_run_eq_ok.1 hc
    obtain ⟨args, hrenders, hu⟩ := renders_of_run hcalls.1 hs hg hexpr
    have hscope : t.analytic = (s.note (c.expr.sortedBy args)).analytic := by rw [ht, ← hu]
    have hopened : t.analytic = some { scope with
        columns := scope.columns ++ c.expr.sortedBy args } := by rw [hscope, State.note, hs]; rfl
    obtain ⟨texts, hfinal, hrest⟩ := ih hcalls.2 hopened ⟨hg.partition, hg.order⟩ hr
    refine ⟨args :: texts, ?_, fun j d hd => ?_⟩
    · rw [hfinal, State.analytic_note hscope, State.note_note, List.zipWith_cons_cons,
        List.flatten_cons]
    · cases j with
      | zero =>
        cases hd
        exact ⟨args, [], s, rfl, rfl, hrenders⟩
      | succ j =>
        obtain ⟨args', front, before, hargs, hfront, hrenders⟩ := hrest j d hd
        exact ⟨args', sql :: front, before, hargs,
          each_cons_run_eq_ok.2 ⟨sql, t, front, hc, hfront, rfl⟩, hrenders⟩

theorem reach_run_eq_ok {groups : List CallGroup} {g : CallGroup} {calls : List ComputedColumn}
    {settings : Settings} {s before : State} :
    (reach groups g calls).run settings s = .ok () before ↔ ∃ sqls t scope front,
      (each CallGroup.render groups).run settings s = .ok sqls t ∧ t.analytic = some scope ∧
      (each ComputedColumn.render calls).run settings
        { t with analytic := some (openGroup g scope) } = .ok front before := by
  unfold reach
  rw [CallGroup.renderAll_eq, ComputedColumn.renderAll_eq, bind_run_eq_ok]
  constructor
  · rintro ⟨sqls, t, hgroups, h⟩
    obtain ⟨_, _, hopen, h⟩ := bind_run_eq_ok.1 h
    obtain ⟨scope, hscope, rfl⟩ := modifyScope_run_eq_ok.1 hopen
    obtain ⟨front, _, hcalls, h⟩ := bind_run_eq_ok.1 h
    obtain ⟨-, rfl⟩ := pure_run_eq_ok.1 h
    exact ⟨sqls, t, scope, front, hgroups, hscope, hcalls⟩
  · rintro ⟨sqls, t, scope, front, hgroups, hscope, hcalls⟩
    refine ⟨sqls, t, hgroups, ?_⟩
    rw [bind_run_of_ok (modifyScope_run_eq_ok.2 ⟨scope, hscope, rfl⟩)]
    exact bind_run_eq_ok.2 ⟨front, before, hcalls, rfl⟩

theorem reach_nil_run {g : CallGroup} {calls : List ComputedColumn} {settings : Settings}
    {s before : State} {scope : AnalyticScope} {front : List String} (hs : s.analytic = some scope)
    (h : (each ComputedColumn.render calls).run settings
      { s with analytic := some (openGroup g scope) } = .ok front before) :
    (reach [] g calls).run settings s = .ok () before :=
  reach_run_eq_ok.2 ⟨[], s, scope, front, rfl, hs, h⟩

theorem reach_cons_run {first g : CallGroup} {groups : List CallGroup}
    {calls : List ComputedColumn} {settings : Settings} {s t before : State} {sql : String}
    (hfirst : first.render.run settings s = .ok sql t)
    (h : (reach groups g calls).run settings t = .ok () before) :
    (reach (first :: groups) g calls).run settings s = .ok () before := by
  obtain ⟨sqls, u, scope, front, hgroups, hscope, hcalls⟩ := reach_run_eq_ok.1 h
  have hall := each_cons_run_eq_ok.2 ⟨sql, t, sqls, hfirst, hgroups, rfl⟩
  exact reach_run_eq_ok.2 ⟨sql :: sqls, u, scope, front, hall, hscope, hcalls⟩

/-- The groups one after the other. Each starts from the columns of those before it, and from
nothing else. -/
theorem groups_run {groups : List CallGroup}
    (hcalls : ∀ g ∈ groups, ∀ c ∈ g.calls, c.expr.IsSingleCall) {settings : Settings}
    {s final : State} {scope : AnalyticScope} {sqls : List String} (hs : s.analytic = some scope)
    (h : (each CallGroup.render groups).run settings s = .ok sqls final) :
    ∃ texts last, final.analytic = some last ∧
      last.columns = scope.columns ++ (List.zipWith sortedBy groups texts).flatten ∧
      ∀ (i : Nat) g, groups[i]? = some g → ∃ args, texts[i]? = some args ∧
        ∀ (j : Nat) c, g.calls[j]? = some c → ∃ sqls before, args[j]? = some sqls ∧
          (reach (groups.take i) g (g.calls.take j)).run settings s = .ok () before ∧
          g.Renders settings before c.expr sqls := by
  induction groups generalizing s scope sqls with
  | nil =>
    cases h
    exact ⟨[], scope, hs, by simp, by simp⟩
  | cons g r ih =>
    rw [List.forall_mem_cons] at hcalls
    obtain ⟨sql, t, more, hrender, hr, rfl⟩ := each_cons_run_eq_ok.1 h
    obtain ⟨inner, _, hinner, hrun, -⟩ := CallGroup.render_run_eq_ok.1 hrender
    obtain rfl : inner = scope := Option.some.inj (hinner.symm.trans hs)
    obtain ⟨args, ht, hg⟩ := calls_run hcalls.1 rfl (g.opened_openGroup inner) hrun
    obtain ⟨texts, last, hlast, hcolumns, hrest⟩ := ih hcalls.2 ht hr
    refine ⟨args :: texts, last, hlast, ?_, fun i g' hg' => ?_⟩
    · rw [hcolumns, List.zipWith_cons_cons, List.flatten_cons, sortedBy, columns]
      simp [openGroup, AnalyticScope.reset]
    · cases i with
      | zero =>
        cases hg'
        refine ⟨args, rfl, fun j c hc => ?_⟩
        obtain ⟨sqls, front, before, hsqls, hfront, hrenders⟩ := hg j c hc
        exact ⟨sqls, before, hsqls, reach_nil_run hs hfront, hrenders⟩
      | succ i =>
        obtain ⟨args', hargs, hreach⟩ := hrest i g' hg'
        refine ⟨args', hargs, fun j c hc => ?_⟩
        obtain ⟨sqls, before, hsqls, hbefore, hrenders⟩ := hreach j c hc
        exact ⟨sqls, before, hsqls, reach_cons_run hrender hbefore, hrenders⟩

end CallGroup

namespace Node

theorem analyticScan_run_eq_ok {columns : List Column} {input : Node} {groups : List CallGroup}
    {settings : Settings} {s final : State} {sql : String}
    (h : (analyticScan columns input groups).render.run settings s = .ok sql final) :
    ∃ text start sqls last, input.render.run settings s = .ok text start ∧
      (CallGroup.renderAll groups).run settings { start with analytic := some {} } =
        .ok sqls last ∧
      sql = analyticText settings.config.rowIdColumn text (last.analytic.getD {}).columns := by
  rw [Node.render] at h
  obtain ⟨text, start, hinput, h⟩ := bind_run_eq_ok.1 h
  obtain ⟨⟨sqls, scope⟩, _, hscope, h⟩ := bind_run_eq_ok.1 h
  obtain ⟨last, hgroups, rfl, rfl⟩ := analyticScope_run_eq_ok.1 hscope
  cases h
  exact ⟨text, start, sqls, last, hinput, hgroups, rfl⟩

theorem analyticText_eq (rowId input : String) (columns : List String) :
    analyticText rowId input columns =
      "FROM ( SELECT *, ROW_NUMBER() OVER() AS " ++ quoteName rowId ++ " " ++ input ++ " )" ++
        (if columns = [] then "" else " ORDER BY " ++ commas columns) := by
  unfold analyticText
  cases columns with
  | nil => exact String.append_empty.symm
  | cons c r => exact String.append_assoc

/-- The calls of an analytic scan that has SQL, if each is a window call and has no other one in its
arguments or frame outside of the groups of a scan there. When a call is reached, it is rendered
with the options of its group. The input is sorted by what the groups are sorted by, in their
order. -/
theorem analyticScan_renders_calls {columns : List Column} {input : Node} {groups : List CallGroup}
    {settings : Settings} {s final : State} {sql : String}
    (hcalls : ∀ g ∈ groups, ∀ c ∈ g.calls, c.expr.IsSingleCall)
    (h : (analyticScan columns input groups).render.run settings s = .ok sql final) :
    ∃ text start texts, input.render.run settings s = .ok text start ∧
      (∀ (i : Nat) g, groups[i]? = some g → ∃ args, texts[i]? = some args ∧
        ∀ (j : Nat) c, g.calls[j]? = some c → ∃ sqls before, args[j]? = some sqls ∧
          (CallGroup.reach (groups.take i) g (g.calls.take j)).run settings
            { start with analytic := some {} } = .ok () before ∧
          g.Renders settings before c.expr sqls) ∧
      let sorted := (List.zipWith CallGroup.sortedBy groups texts).flatten
      sql = "FROM ( SELECT *, ROW_NUMBER() OVER() AS " ++ quoteName settings.config.rowIdColumn ++
        " " ++ text ++ " )" ++ (if sorted = [] then "" else " ORDER BY " ++ commas sorted) := by
  obtain ⟨text, start, sqls, last, hinput, hgroups, rfl⟩ := analyticScan_run_eq_ok h
  rw [CallGroup.renderAll_eq] at hgroups
  obtain ⟨texts, scope, hscope, hcolumns, hreach⟩ := CallGroup.groups_run hcalls rfl hgroups
  refine ⟨text, start, texts, hinput, hreach, ?_⟩
  rw [analyticText_eq, hscope, Option.getD_some, hcolumns, List.nil_append]

def int (name table : String) : Column := ⟨name, table, .scalar .int64⟩

def number (n : Int64) : Node := .literal (.int n) (.scalar .int64)

def framedSum : Node :=
  .analyticCall "sum" [.columnRef (int "z" "t"), number 1] (.scalar .int64) true
    (some ⟨0, some ⟨1, some (number 2)⟩, some ⟨2, none⟩⟩)

/-- A call with another one in its argument, in a group of its own. -/
def countOfRanks : Node :=
  .analyticCall "count" [.subquery .scalar (.analyticScan [] .singleRow [⟨some [int "v" "u"], none,
    [⟨int "k" "", .analyticCall "rank" [.columnRef (int "w" "")] (.scalar .int64) false none⟩]⟩])
    (.scalar .int64)] (.scalar .int64) false none

def sumGroup : CallGroup :=
  ⟨some [int "x" "t"], some [⟨int "y" "t", true⟩], [⟨int "sum" "", framedSum⟩]⟩

def countGroup : CallGroup :=
  ⟨none, some [⟨int "y" "", false⟩], [⟨int "count" "", countOfRanks⟩]⟩

def twoGroups : List CallGroup := [sumGroup, countGroup]

theorem twoGroups_single : ∀ g ∈ twoGroups, ∀ c ∈ g.calls, c.expr.IsSingleCall := by
  have hsum : framedSum.IsSingleCall := by
    refine ⟨rfl, ?_⟩
    have hchildren : framedSum.children = [.columnRef (int "z" "t"), number 1, number 2] := rfl
    simp only [hchildren, List.forall_mem_cons]
    exact ⟨.leaf rfl rfl, .leaf rfl rfl, .leaf rfl rfl, by simp⟩
  have hcount : countOfRanks.IsSingleCall := by
    refine ⟨rfl, List.forall_mem_singleton.2 (.intro rfl (List.forall_mem_singleton.2 ?_))⟩
    exact .intro rfl (List.forall_mem_singleton.2 (.leaf rfl rfl))
  simp [twoGroups, sumGroup, countGroup, hsum, hcount]

theorem twoGroups_renders_calls :
    (∀ g ∈ twoGroups, ∀ c ∈ g.calls, c.expr.IsSingleCall) ∧
    ∃ sql final, (analyticScan [] (.tableScan "t" []) twoGroups).render.run {} oneTable =
        .ok sql final ∧
      ∃ text start texts, (tableScan "t" []).render.run {} oneTable = .ok text start ∧
        (∀ (i : Nat) g, twoGroups[i]? = some g → ∃ args, texts[i]? = some args ∧
          ∀ (j : Nat) c, g.calls[j]? = some c → ∃ sqls before, args[j]? = some sqls ∧
            (CallGroup.reach (twoGroups.take i) g (g.calls.take j)).run {}
              { start with analytic := some {} } = .ok () before ∧
            g.Renders {} before c.expr sqls) ∧
        let sorted := (List.zipWith CallGroup.sortedBy twoGroups texts).flatten
        sql = "FROM ( SELECT *, ROW_NUMBER() OVER() AS `rowid` " ++ text ++ " )" ++
          (if sorted = [] then "" else " ORDER BY " ++ commas sorted) ∧
        (framedSum.render {}).run' ((CallGroup.reach [] sumGroup []).after {}
            { start with analytic := some {} }) =
          some ("( SELECT bqlite_window_sum_int64(`z`,1,bqlite_distinct_string()," ++
            "bqlite_window_partition_string(`x`),bqlite_window_order_by_string(`y`, false)," ++
            "bqlite_window_frame_unit_string(0),bqlite_window_boundary_start_string(1, 2)," ++
            "bqlite_window_boundary_end_string(2, 0),bqlite_window_rowid_string(`rowid`))" ++
            " FROM `t` )") ∧
        (countOfRanks.render {}).run' ((CallGroup.reach [sumGroup] countGroup []).after {}
            { start with analytic := some {} }) =
          some ("( SELECT bqlite_window_count_int64(" ++
            "FROM ( SELECT *, ROW_NUMBER() OVER() AS `rowid`  ) ORDER BY `v`,`w`," ++
            "bqlite_window_order_by_string(`y`, true),bqlite_window_rowid_string(`rowid`))" ++
            " FROM `t` )") := by
  have hrun : (analyticScan [] (.tableScan "t" []) twoGroups).render.run {} oneTable =
      .ok _ _ := rfl
  obtain ⟨text, start, texts, hinput, hcalls, hsql⟩ :=
    analyticScan_renders_calls twoGroups_single hrun
  refine ⟨twoGroups_single, _, _, hrun, text, start, texts, hinput, hcalls, hsql, ?_⟩
  obtain ⟨-, rfl⟩ := EStateM.Result.ok.inj hinput
  decide +kernel

/-- The input is sorted by the columns of the first group and its one argument that is no constant,
then by those of the second group. -/
example : ((analyticScan [] (.tableScan "t" []) twoGroups).render {}).run' oneTable =
    some ("FROM ( SELECT *, ROW_NUMBER() OVER() AS `rowid` FROM `t` ) ORDER BY `x`,`y`,`z`,`y`," ++
      "FROM ( SELECT *, ROW_NUMBER() OVER() AS `rowid`  ) ORDER BY `v`,`w`") := by
  decide +kernel

/-- Every window call in the tree is inside an analytic scan. -/
inductive CallsInScans : Node → Prop
  | scan (columns : List Column) (input : Node) (groups : List CallGroup) :
    CallsInScans (.analyticScan columns input groups)
  | parts {n : Node} (here : n.isWindowCall = false) (parts : ∀ e ∈ n.children, e.CallsInScans) :
    CallsInScans n

/-- A window call that is inside an analytic scan, but in its input. -/
def sumOfInput : Node :=
  .subquery .scalar (.analyticScan [] (.projectScan [int "r" ""]
    [⟨int "r" "", .analyticCall "sum" [.columnRef (int "y" "t")] (.scalar .int64) false none⟩]
    (.tableScan "t" [])) []) (.scalar .int64)

def sumOfSums : CallGroup where
  partition := some [int "x" "t"]
  order := none
  calls := [⟨int "sum" "", .analyticCall "sum" [sumOfInput] (.scalar .int64) false none⟩]

/-- The call in the input is rendered in the scope around, so rows are sorted by its argument `y` as
well. -/
theorem sumOfSums_sorts_by_inner_argument :
    sumOfInput.CallsInScans ∧
    ∃ text,
      ((do CallGroup.reach [] sumOfSums []; sumOfInput.render) {}).run'
        { cursor := ⟨[], [["t"], ["t"]], 1, by decide⟩, analytic := some {} } = some text ∧
      ((analyticScan [] (.tableScan "t" []) [sumOfSums]).render {}).run'
        { cursor := .start [] [["t"], ["t"]] } ≠
        some ("FROM ( SELECT *, ROW_NUMBER() OVER() AS `rowid` FROM `t` ) ORDER BY " ++
          commas ["`x`", text]) ∧
      ((analyticScan [] (.tableScan "t" []) [sumOfSums]).render {}).run'
        { cursor := .start [] [["t"], ["t"]] } =
        some ("FROM ( SELECT *, ROW_NUMBER() OVER() AS `rowid` FROM `t` ) ORDER BY " ++
          commas ["`x`", "`y`", text]) := by
  refine ⟨.parts rfl (List.forall_mem_singleton.2 (.scan ..)),
    "FROM ( SELECT *, ROW_NUMBER() OVER() AS `rowid` SELECT ( SELECT " ++
      "bqlite_window_sum_int64(`y`,bqlite_window_partition_string(`x`)," ++
      "bqlite_window_rowid_string(`rowid`)) FROM `t` ) AS `r` FROM `t` )", ?_, ?_, ?_⟩
  · decide +kernel
  · decide +kernel
  · decide +kernel

end Node
end ResolvedSql
