import ResolvedSql.Proofs.InsertedRows
import ResolvedSql.Proofs.LiteralText
import ResolvedSql.Proofs.Parts
/-!
Conditions of deletions and changes. A condition is left out if its text is empty, not only if there
is none. The text of a tree is empty exactly if the tree is void: it reads a single row, adds no
clause, and no call or `EXISTS` stands around it. A deletion with such a condition deletes all rows.
-/
set_option autoImplicit false

namespace ResolvedSql

open Text Render

theorem Text.separated_cons_eq_empty_iff {sep : String} (h : sep ≠ "") (x : String)
    (xs : List String) : separated sep (x :: xs) = "" ↔ xs = [] ∧ x = "" := by
  cases xs with
  | nil => simp [separated]
  | cons y r => simp [separated, h]

/-- Whether a tree has empty text: a single row has, and so have the scans that add no clause to it
and the subqueries over such a scan, except `EXISTS`. -/
def Node.isVoid : Node → Bool
  | .singleRow => true
  | .subquery kind query _ => kind != .exists && query.isVoid
  | .aggregateScan _ input keys _ => keys.isEmpty && input.isVoid
  | .setOperation _ branches =>
    match branches with
    | [] => true
    | [⟨scan, _⟩] => scan.isVoid
    | _ => false
  | .orderByScan input items => items.isEmpty && input.isVoid
  | .queryStmt _ query => query.isVoid
  | _ => false

theorem Literal.encode_ne_empty {v : Value} {type : SqlType} {sql : String}
    (h : encode v type = .ok sql) : sql ≠ "" := by
  obtain ⟨constant, hwritten, -⟩ := encode_written h
  rintro rfl
  exact hwritten.ne_nil rfl

namespace Render

theorem inlineBody_ne_empty {settings : Settings} (name : String) (body : FunctionBody)
    (args : List String) : Gives settings (inlineBody name body args) (· ≠ "") := by
  refine .bind (.demand fun sql hsql => ?_) fun sql hsql => .bind_last fun _ => .pure hsql
  obtain ⟨ss, -, -, rfl⟩ := FunctionBody.inline_eq_ok.1 hsql
  simp

theorem groupText_eq_empty_iff (input : String) (keys : List String) :
    groupText input keys = "" ↔ keys = [] ∧ input = "" := by
  have hsource : groupSource input = "" ↔ input = "" := by
    unfold groupSource
    split
    · rename_i h
      have hinput : input ≠ "" := by
        rintro rfl
        simp [startsWith] at h
      simp [hinput]
    · exact Iff.rfl
  cases keys with
  | nil => simp [groupText, hsource]
  | cons key keys => simp [groupText]

theorem orderByText_eq_empty_iff (input : String) (items : List OrderItem) :
    orderByText input items = "" ↔ items = [] ∧ input = "" := by
  cases items with
  | nil => simp [orderByText]
  | cons item items => simp [orderByText]

theorem arrayText_ne_empty (lead element array : String) : arrayText lead element array ≠ "" := by
  unfold arrayText
  generalize optionCall lead "decode_array" [array] = option
  simp

theorem parameterText_ne_empty (name : String) (position : Option UInt32) :
    parameterText name position ≠ "" := by
  unfold parameterText
  split
  · split <;> simp
  · simp

theorem selectText_ne_empty (items : List String) (input : String) :
    selectText items input ≠ "" := by
  unfold selectText
  split <;> simp

theorem analyticText_ne_empty (rowId input : String) (columns : List String) :
    analyticText rowId input columns ≠ "" := by
  unfold analyticText
  split <;> simp

theorem whereText_ne_empty {statement : String} (h : statement ≠ "") (condition : String) :
    whereText statement condition ≠ "" := by
  unfold whereText
  split
  · exact h
  · simp

theorem insertText_ne_empty (table : String) (columns : List Column) (source : String) :
    insertText table columns source ≠ "" := by
  unfold insertText
  simp

theorem windowCallText_ne_empty (name : String) (args : List String) (table : String) :
    windowCallText name args table ≠ "" := by
  unfold windowCallText
  simp

theorem subqueryText_eq_empty_iff (kind : SubqueryKind) (query : String) :
    subqueryText kind query = "" ↔ kind ≠ .exists ∧ query = "" := by
  cases kind <;> simp [subqueryText]

end Render

namespace Node

section

variable {settings : Settings}

theorem literal_ne_empty (hencoder : settings.encoder = Literal.encode) (value : Value)
    (type : SqlType) : Gives settings (literal value type).render (· ≠ "") := by
  rw [Node.render]
  refine .bind .read fun _ hread => .demand fun sql hsql => ?_
  rw [hread, hencoder] at hsql
  exact Literal.encode_ne_empty hsql

theorem call_ne_empty (function : String) (arguments : List Node) (type : SqlType) :
    Gives settings (call function arguments type).render (· ≠ "") := by
  rw [Node.render]
  refine .bind_last fun args => .bind_last fun callee => ?_
  split
  · exact inlineBody_ne_empty _ _ _
  · exact .pure (by simp [callText])

theorem aggregateCall_ne_empty (function : String) (arguments : List Node) (type : SqlType)
    (distinct : Bool) (orderBy : List OrderItem) (limit : Option Node) :
    Gives settings (aggregateCall function arguments type distinct orderBy limit).render
      (· ≠ "") := by
  rw [Node.render]
  refine .bind_last fun args => .bind_last fun callee => ?_
  split
  · exact inlineBody_ne_empty _ _ _
  · exact .bind_last fun lead => .bind_last fun limits => .pure (by simp [callText])

theorem analyticCall_ne_empty (function : String) (arguments : List Node) (type : SqlType)
    (distinct : Bool) (frame : Option Frame) :
    Gives settings (analyticCall function arguments type distinct frame).render (· ≠ "") := by
  rw [Node.render]
  refine .bind_last fun scope => .bind_last fun args => ?_
  simp only
  split
  · exact .throw _
  · refine .bind_last fun callee => ?_
    split
    · exact inlineBody_ne_empty _ _ _
    · exact .bind_last fun lead => .bind_last fun scope => .bind_last fun frames =>
        .bind_last fun settings => .bind_last fun _ => .pure (windowCallText_ne_empty _ _ _)

theorem arrayScan_ne_empty (input : Option Node) (array : Node) (element : Column) :
    Gives settings (arrayScan input array element).render (· ≠ "") := by
  cases input with
  | some input =>
    rw [Node.render]
    exact .throw _
  | none =>
    rw [Node.render]
    exact .bind_last fun sql => .bind_last fun lead => .pure (arrayText_ne_empty _ _ _)

theorem limitScan_ne_empty (input limit : Node) (offset : Option Node) :
    Gives settings (limitScan input limit offset).render (· ≠ "") := by
  rw [Node.render.eq_def]
  refine .bind_last fun sql => .bind_last fun count => ?_
  cases offset with
  | none => exact .pure (by simp)
  | some e => exact .bind_last fun offset => .pure (by simp)

theorem withScan_ne_empty (entries : List NamedQuery) (query : Node) (recursive : Bool) :
    Gives settings (withScan entries query recursive).render (· ≠ "") := by
  rw [Node.render]
  split
  · exact .throw_bind _ _
  · exact .bind_last fun sqls => .bind_last fun sql => .pure (by simp)

theorem updateStmt_ne_empty (table : String) (assignments : List Assignment)
    (condition : Option Node) :
    Gives settings (updateStmt table assignments condition).render (· ≠ "") := by
  rw [Node.render]
  refine .bind_last fun name => ?_
  split
  · exact .throw_bind _ _
  · exact .bind_last fun sqls => .bind_last fun sql => .pure (whereText_ne_empty (by simp) _)

theorem aggregateScan_eq_empty_iff {input : Node}
    (h : Gives settings input.render fun sql => sql = "" ↔ input.isVoid = true)
    (columns : List Column) (keys aggregates : List ComputedColumn) :
    Gives settings (aggregateScan columns input keys aggregates).render fun sql =>
      sql = "" ↔ (aggregateScan columns input keys aggregates).isVoid = true := by
  rw [Node.render, ComputedColumn.renderAll_eq, ComputedColumn.renderAll_eq]
  refine .bind_last fun _ => .bind (.length keys) fun groups hgroups => .bind h fun sql hsql => ?_
  refine .pure ?_
  rw [groupText_eq_empty_iff, hsql, Node.isVoid, ← List.length_eq_zero_iff, hgroups]
  simp

theorem setOperation_eq_empty_iff (code : Int32) {branches : List SetBranch}
    (h : ∀ b ∈ branches, Gives settings b.scan.render fun sql => sql = "" ↔ b.scan.isVoid = true) :
    Gives settings (setOperation code branches).render fun sql =>
      sql = "" ↔ (setOperation code branches).isVoid = true := by
  rw [Node.render, SetBranch.renderAll_eq]
  refine .bind_last fun op => ?_
  have hsep : " " ++ op.keywords ++ " " ≠ "" := by simp
  cases branches with
  | nil =>
    refine .bind (.length []) fun sqls hsqls => .pure ?_
    obtain rfl := List.length_eq_zero_iff.1 hsqls
    simp [Node.isVoid, separated]
  | cons b r =>
    obtain ⟨scan, columns⟩ := b
    have hscan : Gives settings (SetBranch.render ⟨scan, columns⟩) fun sql =>
        sql = "" ↔ scan.isVoid = true := by
      rw [SetBranch.render]
      exact h ⟨scan, columns⟩ List.mem_cons_self
    refine .bind (.each_cons r hscan) fun sqls hsqls => .pure ?_
    obtain ⟨sql, rest, rfl, hsql, hrest⟩ := hsqls
    rw [separated_cons_eq_empty_iff hsep, hsql, ← List.length_eq_zero_iff, hrest]
    cases r <;> simp [Node.isVoid]

theorem render_eq_empty_iff (hencoder : settings.encoder = Literal.encode) (n : Node) :
    Gives settings n.render fun sql => sql = "" ↔ n.isVoid = true := by
  have hfalse {x : Render String} {m : Node} (hm : m.isVoid = false)
      (h : Gives settings x (· ≠ "")) : Gives settings x fun sql => sql = "" ↔ m.isVoid = true :=
    fun s sql final hsql => by simp [hm, h s sql final hsql]
  induction n using Node.induction with
  | step n ih =>
    cases n with
    | literal => exact hfalse rfl (literal_ne_empty hencoder _ _)
    | parameter =>
      rw [Node.render]
      exact hfalse rfl (.pure (parameterText_ne_empty _ _))
    | columnRef =>
      rw [Node.render]
      exact hfalse rfl (.pure (by simp [quoteName, quoted]))
    | argumentRef | columnDefault =>
      rw [Node.render]
      exact hfalse rfl (.pure (by decide))
    | call => exact hfalse rfl (call_ne_empty _ _ _)
    | aggregateCall => exact hfalse rfl (aggregateCall_ne_empty _ _ _ _ _ _)
    | analyticCall => exact hfalse rfl (analyticCall_ne_empty _ _ _ _ _)
    | structField =>
      rw [Node.render]
      exact hfalse rfl (.bind_last fun sql => .bind_last fun lead => .pure (by simp))
    | subquery kind query type =>
      rw [Node.render]
      refine .bind (ih query (by simp [Node.children])) fun sql hsql => .pure ?_
      rw [subqueryText_eq_empty_iff, hsql, Node.isVoid]
      simp
    | singleRow =>
      rw [Node.render]
      exact .pure (by simp [Node.isVoid])
    | tableScan =>
      rw [Node.render]
      exact hfalse rfl (.bind_last fun name => .pure (by simp))
    | arrayScan => exact hfalse rfl (arrayScan_ne_empty _ _ _)
    | filterScan =>
      rw [Node.render]
      exact hfalse rfl (.bind_last fun sql => .bind_last fun filter => .pure (by simp))
    | projectScan =>
      rw [Node.render]
      exact hfalse rfl (.bind_last fun own => .bind_last fun below =>
        .pure (selectText_ne_empty _ _))
    | aggregateScan columns input keys aggregates =>
      exact aggregateScan_eq_empty_iff (ih input (by simp [Node.children])) columns keys aggregates
    | setOperation code branches =>
      refine setOperation_eq_empty_iff code fun b hb => ih b.scan ?_
      rw [Node.children]
      exact List.mem_map_of_mem hb
    | orderByScan input items =>
      rw [Node.render]
      refine .bind (ih input (by simp [Node.children])) fun sql hsql => .pure ?_
      rw [orderByText_eq_empty_iff, hsql, Node.isVoid]
      simp
    | limitScan => exact hfalse rfl (limitScan_ne_empty _ _ _)
    | withScan => exact hfalse rfl (withScan_ne_empty _ _ _)
    | withRef =>
      rw [Node.render]
      exact hfalse rfl (.pure (by simp))
    | analyticScan =>
      rw [Node.render]
      exact hfalse rfl (.bind_last fun sql => .bind_last fun scope => .bind_last fun settings =>
        .pure (analyticText_ne_empty _ _ _))
    | queryStmt columns query =>
      rw [Node.render, Node.isVoid]
      exact ih query (by simp [Node.children])
    | insertStmt =>
      rw [insertStmt_render]
      exact hfalse rfl (.bind_last fun name => .bind_last fun source =>
        .pure (insertText_ne_empty _ _ _))
    | deleteStmt =>
      rw [Node.render]
      exact hfalse rfl (.bind_last fun name => .bind_last fun sql =>
        .pure (whereText_ne_empty (by simp) _))
    | updateStmt => exact hfalse rfl (updateStmt_ne_empty _ _ _)
    | unsupported =>
      rw [Node.render]
      exact .throw _

end

/-- The text of a statement that starts with `front` and has its condition next. A condition with
empty text is left out as if there were none. -/
inductive Conditioned (settings : Settings) (front : String) (s : State) :
    Option Node → String → State → Prop
  | absent : Conditioned settings front s none front s
  | kept {e : Node} {text : String} {final : State} (hvoid : e.isVoid = false)
    (h : e.render.run settings s = .ok text final) (htext : text ≠ "") :
    Conditioned settings front s (some e) (front ++ " WHERE " ++ text) final
  | dropped {e : Node} {final : State} (hvoid : e.isVoid = true)
    (h : e.render.run settings s = .ok "" final) : Conditioned settings front s (some e) front final

section
variable {settings : Settings} (hencoder : settings.encoder = Literal.encode)
include hencoder

theorem conditioned_iff {front sql : String} {s final : State} {condition : Option Node} :
    Conditioned settings front s condition sql final ↔
      ∃ text, (Node.renderOption condition).run settings s = .ok text final ∧
        sql = whereText front text := by
  cases condition with
  | none =>
    rw [Node.renderOption]
    constructor
    · intro h
      cases h with
      | absent => exact ⟨"", rfl, rfl⟩
    · rintro ⟨text, htext, rfl⟩
      obtain ⟨rfl, rfl⟩ := pure_run_eq_ok.1 htext
      exact .absent
  | some e =>
    rw [Node.renderOption]
    constructor
    · intro h
      cases h with
      | @kept _ text _ hvoid h htext => exact ⟨text, h, by rw [whereText, if_neg htext]⟩
      | dropped hvoid h => exact ⟨"", h, rfl⟩
    · rintro ⟨text, htext, rfl⟩
      have hempty := e.render_eq_empty_iff hencoder s text final htext
      unfold whereText
      split
      · rename_i h
        subst h
        exact .dropped (hempty.1 rfl) htext
      · rename_i h
        exact .kept (by simpa [h] using hempty) htext h

/-- What becomes of the condition of a deletion or a change: the text ends with it unless there is
none or it is void. -/
theorem condition_kept_unless_void (s : State) (condition : Option Node) :
    (∀ table sql final, (deleteStmt table condition).render.run settings s = .ok sql final ↔
      ∃ name t, s.Names name t ∧
        Conditioned settings ("DELETE FROM " ++ quoteName name) t condition sql final) ∧
    ∀ table assignments sql final,
      (updateStmt table assignments condition).render.run settings s = .ok sql final ↔
        assignments ≠ [] ∧ ∃ name t sqls u, s.Names name t ∧
          (Assignment.renderAll assignments).run settings t = .ok sqls u ∧
          Conditioned settings ("UPDATE " ++ quoteName name ++ " SET " ++ commas sqls) u condition
            sql final := by
  simp only [conditioned_iff hencoder]
  constructor
  · intro table sql final
    rw [Node.render, bind_run_eq_ok]
    constructor
    · rintro ⟨name, t, hname, h⟩
      obtain ⟨text, u, htext, h⟩ := bind_run_eq_ok.1 h
      obtain ⟨rfl, rfl⟩ := pure_run_eq_ok.1 h
      exact ⟨name, t, nextName_run_eq_ok.1 hname, text, htext, rfl⟩
    · rintro ⟨name, t, hname, text, htext, rfl⟩
      exact ⟨name, t, nextName_run_eq_ok.2 hname, bind_run_eq_ok.2 ⟨text, final, htext, rfl⟩⟩
  · intro table assignments sql final
    rw [Node.render, bind_run_eq_ok]
    constructor
    · rintro ⟨name, t, hname, h⟩
      split at h
      · obtain ⟨_, _, hthrow, -⟩ := bind_run_eq_ok.1 h
        exact (throw_run_ne_ok hthrow).elim
      · rename_i hassignments
        obtain ⟨sqls, u, hsqls, h⟩ := bind_run_eq_ok.1 h
        obtain ⟨text, v, htext, h⟩ := bind_run_eq_ok.1 h
        obtain ⟨rfl, rfl⟩ := pure_run_eq_ok.1 h
        exact ⟨by simpa using hassignments, name, t, sqls, u, nextName_run_eq_ok.1 hname, hsqls,
          text, htext, rfl⟩
    · rintro ⟨hassignments, name, t, sqls, u, hname, hsqls, text, htext, rfl⟩
      refine ⟨name, t, nextName_run_eq_ok.2 hname, ?_⟩
      rw [if_neg (by simpa using hassignments)]
      exact bind_run_eq_ok.2 ⟨sqls, u, hsqls, bind_run_eq_ok.2 ⟨text, final, htext, rfl⟩⟩

end

def emptyCondition : Node := .subquery .scalar .singleRow (.scalar .bool)

def negatedCondition : Node := .call "$not" [emptyCondition] (.scalar .bool)

def beforeDelete : State := { cursor := .start [] [["t"]] }

theorem negatedCondition_kept_unless_void :
    ({} : Settings).encoder = Literal.encode ∧
    ∃ sql final, (deleteStmt "t" (some negatedCondition)).render.run {} beforeDelete =
        .ok sql final ∧
      ∃ name t, beforeDelete.Names name t ∧
        Conditioned {} ("DELETE FROM " ++ quoteName name) t (some negatedCondition) sql final := by
  have hrun : (deleteStmt "t" (some negatedCondition)).render.run {} beforeDelete = .ok _ _ := rfl
  exact ⟨rfl, _, _, hrun, ((condition_kept_unless_void rfl _ _).1 _ _ _).1 hrun⟩

/-- A deletion whose condition is a subquery over a single row deletes every row. -/
theorem emptyCondition_dropped :
    ((deleteStmt "t" (some emptyCondition)).render {}).run' beforeDelete =
      some "DELETE FROM `t`" ∧
    ∀ front text, "DELETE FROM `t`" ≠ front ++ " WHERE " ++ text := by
  refine ⟨by decide +kernel, fun front text h => ?_⟩
  have hinfix : " WHERE ".toList <:+: "DELETE FROM `t`".toList := by
    rw [h]
    exact ⟨front.toList, text.toList, by simp⟩
  exact absurd hinfix (by decide +kernel)

end Node
end ResolvedSql
