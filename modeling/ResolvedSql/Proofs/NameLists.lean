import Mathlib.Data.List.Basic
import ResolvedSql.Proofs.CorrelationTable
import ResolvedSql.Proofs.InsertedRows
import ResolvedSql.Proofs.QuotedNames
set_option autoImplicit false

namespace ResolvedSql

open Text Render

namespace Text

theorem undouble_length {q : Char} {cs s r : List Char} (h : undouble q cs = some (s, r)) :
    r.length < cs.length := by
  fun_induction undouble q cs generalizing s with
  | case1 => cases h
  | case2 =>
    cases h
    simp
  | case3 => cases h
  | case4 r' ih =>
    obtain ⟨⟨t, rest⟩, ht, heq⟩ := Option.map_eq_some_iff.1 h
    cases heq
    have := ih ht
    simp only [List.length_cons]
    omega
  | case5 =>
    cases h
    simp
  | case6 c d r' hc ih =>
    obtain ⟨⟨t, rest⟩, ht, heq⟩ := Option.map_eq_some_iff.1 h
    cases heq
    have := ih ht
    simp only [List.length_cons] at this ⊢
    omega

theorem unquote_length {q : Char} {cs s r : List Char} (h : unquote q cs = some (s, r)) :
    r.length < cs.length := by
  cases cs with
  | nil => cases h
  | cons c cs =>
    by_cases hc : c = q
    · rw [unquote, if_pos hc] at h
      exact Nat.lt_succ_of_lt (undouble_length h)
    · rw [unquote, if_neg hc] at h
      cases h

/-- Reads names in backticks from the front of a text, as long as a comma and a further backtick
follow. A backtick that starts no name is an error. -/
def readNames (cs : List Char) : Option (List String × List Char) :=
  match _h : unquote '`' cs with
  | none => if cs.head? = some '`' then none else some ([], cs)
  | some (s, rest) =>
    if [',', '`'].isPrefixOf rest then
      (readNames rest.tail).map fun more => (String.ofList s :: more.1, more.2)
    else some ([String.ofList s], rest)
termination_by cs.length
decreasing_by
  have := unquote_length _h
  rw [List.length_tail]
  omega

theorem readNames_of_unquote {cs s rest : List Char} (h : unquote '`' cs = some (s, rest)) :
    readNames cs = if [',', '`'].isPrefixOf rest then
      (readNames rest.tail).map fun more => (String.ofList s :: more.1, more.2)
    else some ([String.ofList s], rest) := by
  rw [readNames]
  split
  · rename_i heq
    rw [h] at heq
    cases heq
  · rename_i heq
    rw [h] at heq
    cases heq
    rfl

theorem head?_ne_of_not_startsWith {c : Char} {r : String}
    (h : startsWith (String.ofList [c]) r = false) : r.toList.head? ≠ some c := by
  intro hhead
  cases hr : r.toList with
  | nil => simp [hr] at hhead
  | cons d rest =>
    rw [hr, List.head?_cons, Option.some.injEq] at hhead
    simp [startsWith, hr, hhead] at h

theorem unquote_quoteName (name : String) {r : List Char} (hr : r.head? ≠ some '`') :
    unquote '`' ((quoteName name).toList ++ r) = some (name.toList, r) :=
  unquote_quoted name hr

theorem readNames_nil {r : List Char} (hr : r.head? ≠ some '`') : readNames r = some ([], r) := by
  have hnone : unquote '`' r = none := by
    cases r with
    | nil => rfl
    | cons c r =>
      have hc : c ≠ '`' := fun h => hr (by rw [h]; rfl)
      rw [unquote, if_neg hc]
  rw [readNames]
  split
  · rw [if_neg hr]
  · rename_i heq
    rw [hnone] at heq
    cases heq

theorem readNames_last (name : String) {r : List Char} (hr : r.head? ≠ some '`')
    (hcomma : [',', '`'].isPrefixOf r = false) :
    readNames ((quoteName name).toList ++ r) = some ([name], r) := by
  rw [readNames_of_unquote (unquote_quoteName name hr), hcomma]
  simp

theorem readNames_more (name : String) {r rest : List Char} {names : List String}
    (h : readNames ('`' :: r) = some (names, rest)) :
    readNames ((quoteName name).toList ++ ',' :: '`' :: r) = some (name :: names, rest) := by
  have hname := unquote_quoteName name (r := ',' :: '`' :: r) (by simp)
  rw [readNames_of_unquote hname, if_pos (by simp), List.tail_cons, h]
  simp

theorem commas_quoteName_cons (name : String) (names : List String) :
    ∃ r, (commas ((name :: names).map quoteName)).toList = '`' :: r := by
  cases names <;> simp [commas, separated, quoteName, quoted]

theorem readNames_commas (names : List String) {r : List Char} (hr : r.head? ≠ some '`')
    (hcomma : [',', '`'].isPrefixOf r = false) :
    readNames ((commas (names.map quoteName)).toList ++ r) = some (names, r) := by
  induction names with
  | nil => exact readNames_nil hr
  | cons m names ih =>
    cases names with
    | nil => exact readNames_last m hr hcomma
    | cons n names =>
      -- the quote of the next name is the one that continues the list
      obtain ⟨front, hfront⟩ := commas_quoteName_cons n names
      have htail : (commas ((n :: names).map quoteName)).toList ++ r = '`' :: (front ++ r) := by
        rw [hfront, List.cons_append]
      have htext : (commas ((m :: n :: names).map quoteName)).toList ++ r =
          (quoteName m).toList ++ ',' :: '`' :: (front ++ r) := by
        rw [← htail]
        simp [commas, separated]
      rw [htext]
      exact readNames_more m (htail ▸ ih)

def readInsertion (cs : List Char) : Option (String × List String × List Char) := do
  let cs ← cs.dropPrefix? "INSERT INTO ".toList
  let (table, cs) ← unquote '`' cs
  let cs ← cs.dropPrefix? " (".toList
  let (columns, cs) ← readNames cs
  let cs ← cs.dropPrefix? ") ".toList
  return (String.ofList table, columns, cs)

theorem dropPrefix?_append (front : String) (cs : List Char) :
    (front.toList ++ cs).dropPrefix? front.toList = some cs :=
  List.dropPrefix?_append_of_beq cs (beq_self_eq_true _)

theorem readInsertion_insertText (table : String) (columns : List Column) (source : String) :
    readInsertion (insertText table columns source).toList =
      some (table, columns.map (·.name), source.toList) := by
  have htext : (insertText table columns source).toList =
      "INSERT INTO ".toList ++ ((quoteName table).toList ++ (" (".toList ++
        ((commas ((columns.map (·.name)).map quoteName)).toList ++
          (") ".toList ++ source.toList)))) := by
    unfold insertText
    simp only [String.toList_append, List.append_assoc, List.map_map, Function.comp_def]
  have htable := unquote_quoteName table (r := " (".toList ++
    ((commas ((columns.map (·.name)).map quoteName)).toList ++ (") ".toList ++ source.toList)))
    (by simp)
  have hcolumns := readNames_commas (columns.map (·.name)) (r := ") ".toList ++ source.toList)
    (by simp) (by simp [List.isPrefixOf])
  unfold readInsertion
  rw [htext, dropPrefix?_append, Option.bind_eq_bind, Option.bind_some, htable]
  simp only [Option.bind_eq_bind, Option.bind_some, dropPrefix?_append, hcolumns]
  simp

end Text

namespace Node

def callArguments : Node → List Node
  | .analyticCall _ arguments _ _ _ => arguments
  | _ => []

/-- A single window call on columns and constants. -/
structure IsColumnCall (e : Node) : Prop extends IsSingleCall e where
  arguments : ∀ a ∈ e.callArguments, isConstant a = true ∨ ∃ c, a = .columnRef c

theorem sortable_of_columns {arguments : List Node}
    (h : ∀ a ∈ arguments, isConstant a = true ∨ ∃ c, a = .columnRef c) {settings : Settings}
    {s t : State} {args : List String}
    (hrun : (Node.renderAll arguments).run settings s = .ok args t) :
    sortable arguments args = (arguments.filterMap column?).map fun c => quoteName c.name := by
  rw [Node.renderAll_eq] at hrun
  induction arguments generalizing s args with
  | nil => rfl
  | cons a arguments ih =>
    rw [List.forall_mem_cons] at h
    obtain ⟨sql, mid, sqls, ha, hrest, rfl⟩ := each_cons_run_eq_ok.1 hrun
    rw [sortable_cons, ih h.2 hrest]
    rcases h.1 with hconstant | ⟨c, rfl⟩
    · cases a with
      | literal | parameter => rfl
      | _ => cases hconstant
    · rw [Node.render] at ha
      obtain ⟨rfl, -⟩ := pure_run_eq_ok.1 ha
      rfl

end Node

namespace CallGroup

/-- The columns that a group has rows sorted by, if its calls are on columns and constants. -/
def sortColumns (g : CallGroup) : List Column :=
  g.columns ++ g.calls.flatMap fun c => c.expr.callArguments.filterMap Node.column?

theorem Renders.sortedBy_eq {g : CallGroup} {settings : Settings} {s : State} {e : Node}
    {args : List String} (h : g.Renders settings s e args) (he : e.IsColumnCall) :
    e.sortedBy args = (e.callArguments.filterMap Node.column?).map fun c => quoteName c.name := by
  cases h with
  | inlined harguments | named harguments =>
    exact Node.sortable_of_columns he.arguments harguments

end CallGroup

theorem flatten_zipWith_eq {α β γ : Type} {f : α → β → List γ} {g : α → List γ} {as : List α}
    {bs : List β} (h : ∀ (i : Nat) a, as[i]? = some a → ∃ b, bs[i]? = some b ∧ f a b = g a) :
    (List.zipWith f as bs).flatten = as.flatMap g := by
  induction as generalizing bs with
  | nil => rfl
  | cons a as ih =>
    obtain ⟨b, hb, hab⟩ := h 0 a rfl
    cases bs with
    | nil => cases hb
    | cons c bs =>
      cases hb
      rw [List.zipWith_cons_cons, List.flatten_cons, List.flatMap_cons, hab,
        ih fun i a' ha' => h (i + 1) a' ha']

namespace Node

theorem analyticScan_sorted_by_columns {columns : List Column} {input : Node}
    {groups : List CallGroup} {settings : Settings} {s final : State} {sql : String}
    (hcalls : ∀ g ∈ groups, ∀ c ∈ g.calls, c.expr.IsColumnCall)
    (h : (analyticScan columns input groups).render.run settings s = .ok sql final) :
    ∃ text start, input.render.run settings s = .ok text start ∧
      sql = analyticText settings.config.rowIdColumn text
        (((groups.flatMap CallGroup.sortColumns).map (·.name)).map quoteName) := by
  obtain ⟨text, start, sqls, last, hinput, hgroups, rfl⟩ := analyticScan_run_eq_ok h
  rw [CallGroup.renderAll_eq] at hgroups
  obtain ⟨texts, scope, hscope, hcolumns, hreach⟩ :=
    CallGroup.groups_run (fun g hg c hc => (hcalls g hg c hc).toIsSingleCall) rfl hgroups
  refine ⟨text, start, hinput, ?_⟩
  have hsorted : (List.zipWith CallGroup.sortedBy groups texts).flatten =
      groups.flatMap fun g => g.sortColumns.map fun c => quoteName c.name := by
    refine flatten_zipWith_eq fun i g hg => ?_
    obtain ⟨args, hargs, hcall⟩ := hreach i g hg
    refine ⟨args, hargs, ?_⟩
    have hflatten : (List.zipWith (fun c args => c.expr.sortedBy args) g.calls args).flatten =
        g.calls.flatMap fun c =>
          (c.expr.callArguments.filterMap column?).map fun c => quoteName c.name := by
      refine flatten_zipWith_eq fun j c hc => ?_
      obtain ⟨sqls, before, hsqls, -, hrenders⟩ := hcall j c hc
      exact ⟨sqls, hsqls, hrenders.sortedBy_eq
        (hcalls g (List.mem_of_getElem? hg) c (List.mem_of_getElem? hc))⟩
    rw [CallGroup.sortedBy, hflatten, CallGroup.sortColumns, List.map_append, List.map_flatMap]
  rw [hscope, Option.getD_some, hcolumns, List.nil_append, hsorted, List.map_map, List.map_flatMap]
  rfl

end Node

/-- A quoted name is read back whatever follows it, except one more backtick, and so are names with
commas between them, if what follows does not continue the list. No two names have the same quoted
form. So an insertion tells its table and its columns, and a window scan whose calls are on columns
and constants tells the columns that its input is sorted by. -/
theorem quoteName_decodes_in_context :
    (∀ name r : String, startsWith "`" r = false →
      unquote '`' (quoteName name ++ r).toList = some (name.toList, r.toList)) ∧
    (∀ m n : String, quoteName m = quoteName n → m = n) ∧
    (∀ (names : List String) (r : String), startsWith "`" r = false → startsWith ",`" r = false →
      readNames (commas (names.map quoteName) ++ r).toList = some (names, r.toList)) ∧
    (∀ (table : String) (columns : List Column) (rows : List (List Node)) (query : Option Node)
      (settings : Settings) (s final : State) (sql : String),
      (Node.insertStmt table columns rows query).render.run settings s = .ok sql final →
      ∃ name t source, s.Names name t ∧
        (Node.renderSource columns.length rows query).run settings t = .ok source final ∧
        readInsertion sql.toList = some (name, columns.map (·.name), source.toList)) ∧
    ∀ (columns : List Column) (input : Node) (groups : List CallGroup) (settings : Settings)
      (s final : State) (sql : String),
      (∀ g ∈ groups, ∀ c ∈ g.calls, c.expr.IsColumnCall) →
      (Node.analyticScan columns input groups).render.run settings s = .ok sql final →
      let names := (groups.flatMap CallGroup.sortColumns).map (·.name)
      ∃ text start list, input.render.run settings s = .ok text start ∧
        sql = "FROM ( SELECT *, ROW_NUMBER() OVER() AS " ++ quoteName settings.config.rowIdColumn ++
          " " ++ text ++ " )" ++ (if names = [] then "" else " ORDER BY " ++ list) ∧
        readNames list.toList = some (names, []) := by
  have hquote {r : String} (h : startsWith "`" r = false) : r.toList.head? ≠ some '`' :=
    head?_ne_of_not_startsWith h
  refine ⟨fun name r hr => ?_, fun m n => quoted_injective, fun names r hr hcomma => ?_,
    fun table columns rows query settings s final sql h => ?_,
    fun columns input groups settings s final sql hcalls h => ?_⟩
  · rw [String.toList_append]
    exact unquote_quoteName name (hquote hr)
  · rw [String.toList_append]
    exact readNames_commas names (hquote hr) hcomma
  · rw [Node.insertStmt_render] at h
    obtain ⟨name, t, hname, h⟩ := bind_run_eq_ok.1 h
    obtain ⟨source, u, hsource, h⟩ := bind_run_eq_ok.1 h
    obtain ⟨rfl, rfl⟩ := pure_run_eq_ok.1 h
    exact ⟨name, t, source, nextName_run_eq_ok.1 hname, hsource,
      readInsertion_insertText name columns source⟩
  · obtain ⟨text, start, hinput, rfl⟩ := Node.analyticScan_sorted_by_columns hcalls h
    have hread := readNames_commas ((groups.flatMap CallGroup.sortColumns).map (·.name)) (r := [])
      (by simp) (by simp)
    rw [List.append_nil] at hread
    refine ⟨text, start, _, hinput, ?_, hread⟩
    rw [Node.analyticText_eq]
    simp only [List.map_eq_nil_iff]

namespace Node

def oddInsertion : Node :=
  .insertStmt "t" [int "`" "t", int "),`(" "t"] [[.columnDefault, .columnDefault]] none

def oddGroup : CallGroup where
  partition := some [int "`" "t"]
  order := some [⟨int "),`(" "t", true⟩]
  calls := [⟨int "n" "", .analyticCall "count" [.columnRef (int "" "t"), number 1]
    (.scalar .int64) false none⟩]

theorem oddGroup_columnCalls : ∀ g ∈ [oddGroup], ∀ c ∈ g.calls, c.expr.IsColumnCall := by
  have hcall : (analyticCall "count" [.columnRef (int "" "t"), number 1]
      (.scalar .int64) false none).IsColumnCall := by
    refine ⟨⟨rfl, ?_⟩, ?_⟩
    · have hchildren : (analyticCall "count" [.columnRef (int "" "t"), number 1]
          (.scalar .int64) false none).children =
          [.columnRef (int "" "t"), number 1] := rfl
      simp only [hchildren, List.forall_mem_cons]
      exact ⟨.leaf rfl rfl, .leaf rfl rfl, by simp⟩
    · exact List.forall_mem_cons.2 ⟨.inr ⟨_, rfl⟩, List.forall_mem_singleton.2 (.inl rfl)⟩
  simp [oddGroup, hcall]

theorem oddNames_decode_in_context :
    unquote '`' (quoteName "`a``" ++ ",`b`").toList = some ("`a``".toList, ",`b`".toList) ∧
    readNames (commas (["", "`", "),`("].map quoteName) ++ ",f(`x`)").toList =
      some (["", "`", "),`("], ",f(`x`)".toList) ∧
    (∃ sql final name source, oddInsertion.render.run {} oneTable = .ok sql final ∧
      readInsertion sql.toList = some (name, ["`", "),`("], source)) ∧
    ∃ sql final front list,
      (analyticScan [] (.tableScan "t" []) [oddGroup]).render.run {} oneTable =
        .ok sql final ∧
      sql = front ++ (" ORDER BY " ++ list) ∧
      readNames list.toList = some (["`", "),`(", ""], []) := by
  obtain ⟨hname, -, hlist, hinsert, hsorted⟩ := quoteName_decodes_in_context
  refine ⟨hname _ _ rfl, hlist _ _ rfl rfl, ?_, ?_⟩
  · have hrun : oddInsertion.render.run {} oneTable = .ok _ _ := rfl
    obtain ⟨name, t, source, -, -, hread⟩ := hinsert _ _ _ _ _ _ _ _ hrun
    exact ⟨_, _, name, _, hrun, hread⟩
  · have hrun : (analyticScan [] (.tableScan "t" []) [oddGroup]).render.run {} oneTable =
        .ok _ _ := rfl
    obtain ⟨text, start, list, -, hsql, hread⟩ :=
      hsorted _ _ _ _ _ _ _ oddGroup_columnCalls hrun
    exact ⟨_, _, _, list, hrun, hsql, hread⟩

end Node
end ResolvedSql
