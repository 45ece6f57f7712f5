import Mathlib.Data.List.Nodup
import ResolvedSql.Proofs.FragmentSurface
import ResolvedSql.Proofs.Realization
import ResolvedSql.Proofs.StringContents
/-!
The clauses of a query that is put together from scans. They can be read off the tree: a projection
puts `SELECT` before the clauses of its input and the other scans put theirs behind, and only
grouping and numbering hide the clauses of their input in parentheses. So the text is one query
with its clauses in order exactly if the scans come in that order.
-/
set_option autoImplicit false

namespace ResolvedSql

open Text Render FunctionBody

def Catalog.isWellNamed (catalog : Catalog) (function : String) : Bool :=
  (catalog.builtin? function).any fun bare => bare.toList.all Config.isIdentifierChar

namespace Node

/-- Column references, literals, and calls of builtins with such arguments and options. -/
inductive Term : Node → Prop
  | literal (value : Value) (type : SqlType) : Term (.literal value type)
  | columnRef (column : Column) : Term (.columnRef column)
  | call {function : String} {arguments : List Node} {type : SqlType}
    (hname : Catalog.scalar.isWellNamed function = true)
    (harguments : ∀ e ∈ arguments, Term e) : Term (.call function arguments type)
  | aggregateCall {function : String} {arguments : List Node} {type : SqlType} {distinct : Bool}
    {orderBy : List OrderItem} {limit : Option Node}
    (hname : Catalog.aggregate.isWellNamed function = true)
    (harguments : ∀ e ∈ arguments, Term e) (hlimit : ∀ e ∈ limit.toList, Term e) :
    Term (.aggregateCall function arguments type distinct orderBy limit)
  | analyticCall {function : String} {arguments : List Node} {type : SqlType} {distinct : Bool}
    {frame : Option Frame} (hname : Catalog.window.isWellNamed function = true)
    (harguments : ∀ e ∈ arguments, Term e)
    (hoffsets : ∀ e ∈ (frame.map Frame.offsets).getD [], Term e) :
    Term (.analyticCall function arguments type distinct frame)

/-- Scans over scans, with terms for their expressions. -/
inductive ScanTree : Node → Prop
  | singleRow : ScanTree .singleRow
  | tableScan (name : String) (columns : List Column) : ScanTree (.tableScan name columns)
  | arrayScan {input : Option Node} {array : Node} (element : Column)
    (hinput : ∀ n ∈ input.toList, ScanTree n) (harray : array.Term) :
    ScanTree (.arrayScan input array element)
  | filterScan {input condition : Node} (hinput : ScanTree input) (hcondition : condition.Term) :
    ScanTree (.filterScan input condition)
  | projectScan {columns : List Column} {computed : List ComputedColumn} {input : Node}
    (hcomputed : ∀ c ∈ computed, c.expr.Term) (hinput : ScanTree input) :
    ScanTree (.projectScan columns computed input)
  | aggregateScan {columns : List Column} {input : Node} {keys aggregates : List ComputedColumn}
    (hinput : ScanTree input) (hkeys : ∀ c ∈ keys, c.expr.Term)
    (haggregates : ∀ c ∈ aggregates, c.expr.Term) :
    ScanTree (.aggregateScan columns input keys aggregates)
  | orderByScan {input : Node} {items : List OrderItem} (hinput : ScanTree input) :
    ScanTree (.orderByScan input items)
  | limitScan {input limit : Node} {offset : Option Node} (hinput : ScanTree input)
    (hlimit : limit.Term) (hoffset : ∀ e ∈ offset.toList, e.Term) :
    ScanTree (.limitScan input limit offset)
  | analyticScan {columns : List Column} {input : Node} {groups : List CallGroup}
    (hinput : ScanTree input) (hgroups : ∀ g ∈ groups, ∀ c ∈ g.calls, c.expr.Term) :
    ScanTree (.analyticScan columns input groups)

end Node

namespace Node

/-- Whether a term notes a column for the analytic scan around: a window call in it has an argument
that is no constant. -/
def notes : Node → Bool
  | .call _ arguments _ => (arguments.map fun e => e.notes).any id
  | .aggregateCall _ arguments _ _ _ limit =>
    (arguments.map fun e => e.notes).any id || (match limit with
      | none => false
      | some e => e.notes)
  | .analyticCall _ arguments _ _ frame =>
    (arguments.map fun e => e.notes || !isConstant e).any id || (match frame with
      | none => false
      | some ⟨_, first, last⟩ =>
        (match first with
          | some ⟨code, some e⟩ => Boundary.rendersOffset code && e.notes
          | _ => false) ||
        (match last with
          | some ⟨code, some e⟩ => Boundary.rendersOffset code && e.notes
          | _ => false))
  | _ => false
termination_by n => sizeOf n
decreasing_by
  all_goals
    apply Node.sizeOf_lt_of_mem_children
    simp only [Node.children]
    grind [Frame.offsets]

def isQuery : Node → Bool
  | .projectScan _ _ _ => true
  | .filterScan input _ | .orderByScan input _ | .limitScan input _ _ => input.isQuery
  | _ => false

end Node

/-- Whether a group has columns of its own, or a call in it notes one. -/
def CallGroup.notes (g : CallGroup) : Bool :=
  !(g.partition.getD []).isEmpty || !(g.order.getD []).isEmpty || g.calls.any (·.expr.notes)

namespace Node

def filterClause : Node → Clause
  | .aggregateScan _ _ _ _ => .having
  | _ => .filter

/-- The clauses of a scan. -/
def clauses : Node → List Clause
  | .tableScan _ _ | .arrayScan _ _ _ => [.source]
  | .filterScan input _ => input.clauses ++ [input.filterClause]
  | .projectScan _ _ input => .select :: input.clauses
  | .aggregateScan _ input keys _ =>
    (if input.isQuery then [.source] else input.clauses) ++ if keys.isEmpty then [] else [.groupBy]
  | .orderByScan input items => input.clauses ++ if items.isEmpty then [] else [.orderBy]
  | .limitScan input _ _ => input.clauses ++ [.limit]
  | .analyticScan _ _ groups => .source :: if groups.any (·.notes) then [.orderBy] else []
  | _ => []

end Node

theorem Render.filterKeyword_shows (n : Node) : Shows (filterKeyword n) [n.filterClause] := by
  have hhaving : Shows "HAVING" [.having] := .flat (by decide) rfl
  have hwhere : Shows "WHERE" [.filter] := .flat (by decide) rfl
  cases n with
  | aggregateScan => exact hhaving
  | _ => exact hwhere

/-- A scope before its next group: nothing is noted in it, and its texts are balanced. -/
structure AnalyticScope.Settled (scope : AnalyticScope) : Prop where
  columns : scope.columns = []
  partition : ∀ c ∈ scope.partition, Balanced c
  order : ∀ o ∈ scope.order, Balanced o.1

namespace AnalyticScope.Settled

theorem empty : Settled {} := ⟨rfl, by simp, by simp⟩

theorem openGroup (g : CallGroup) (scope : AnalyticScope) :
    (openGroup g scope).bare.Settled := by
  refine ⟨rfl, fun c hc => ?_, fun o ho => ?_⟩
  · obtain ⟨column, -, rfl⟩ := List.mem_map.1 hc
    exact (quoteName_shows _).balanced
  · obtain ⟨item, -, rfl⟩ := List.mem_map.1 ho
    exact (quoteName_shows _).balanced

end AnalyticScope.Settled

theorem Render.windowArguments_balanced {lead : String} (hlead : IsFlat lead) (distinct : Bool)
    {scope : AnalyticScope} (hscope : scope.Settled) :
    ∀ t ∈ windowArguments lead distinct scope, Balanced t := by
  intro t ht
  simp only [windowArguments, List.mem_append, List.mem_map] at ht
  rcases ht with (ht | ⟨column, hc, rfl⟩) | ⟨item, hi, rfl⟩
  · split at ht
    · rw [List.mem_singleton.1 ht]
      exact optionCall_balanced hlead (by decide) (by simp)
    · simp at ht
  · exact optionCall_balanced hlead (by decide) (by simpa using hscope.partition column hc)
  · refine optionCall_balanced hlead (by decide) ?_
    rw [List.forall_mem_cons, List.forall_mem_singleton]
    exact ⟨hscope.order item hi, boolText_balanced _⟩

structure Effects.Notes (e : Effects) (noted : Bool) : Prop where
  computed : ∀ entry ∈ e.computed, Shows entry.2 []
  met : ∀ c ∈ e.met, Shows c []
  isEmpty : e.met.isEmpty = !noted

namespace Effects.Notes

theorem empty : Notes {} false := ⟨by simp, by simp, rfl⟩

theorem append {e f : Effects} {b c : Bool} (he : e.Notes b) (hf : f.Notes c) :
    (e ++ f).Notes (b || c) := by
  refine ⟨?_, ?_, ?_⟩
  · rw [computed_append, List.forall_mem_append]
    exact ⟨he.computed, hf.computed⟩
  · rw [met_append, List.forall_mem_append]
    exact ⟨he.met, hf.met⟩
  · have hmet : (e.met ++ f.met).isEmpty = (e.met.isEmpty && f.met.isEmpty) := by
      cases e.met <;> rfl
    rw [met_append, hmet, he.isEmpty, hf.isEmpty, Bool.not_or]

end Effects.Notes

namespace Meaning

variable {α β : Type} {P : α → Prop} {Q : β → Prop} {m : Meaning α} {b c : Bool}

/-- If there is a result it satisfies `P`, no text computed or noted on the way shows a clause, and
`noted` tells whether one was noted. -/
def Writes (m : Meaning α) (P : α → Prop) (noted : Bool) : Prop :=
  ∀ a, m.result = .ok a → P a ∧ m.effects.Notes noted

namespace Writes

theorem pure {a : α} (h : P a) : (Pure.pure a : Meaning α).Writes P false := by
  intro a' ha'
  cases ha'
  exact ⟨h, .empty⟩

theorem demand {r : Except Error α} (h : ∀ a, r = .ok a → P a) :
    (Meaning.demand r).Writes P false :=
  fun a ha => ⟨h a ha, .empty⟩

theorem fail (e : Error) : (Meaning.fail e : Meaning α).Writes P b := by
  intro a ha
  cases ha

theorem bind {g : α → Meaning β} (h : m.Writes P b) (hg : ∀ a, P a → (g a).Writes Q c) :
    (m >>= g).Writes Q (b || c) := by
  intro d hd
  obtain ⟨a, ha, hd⟩ := result_bind.1 hd
  obtain ⟨hp, hnotes⟩ := h a ha
  obtain ⟨hq, hmore⟩ := hg a hp d hd
  refine ⟨hq, ?_⟩
  have heffects : (m >>= g).effects = m.effects ++ (g a).effects := by simp only [Bind.bind, ha]
  rw [heffects]
  exact hnotes.append hmore

theorem bind_last {g : α → Meaning β} (h : m.Writes P b) (hg : ∀ a, P a → (g a).Writes Q false) :
    (m >>= g).Writes Q b := by
  rw [← Bool.or_false b]
  exact h.bind hg

theorem resolve (ρ : Naming) (site : Site) :
    (Meaning.resolve ρ site).Writes (fun _ => True) false := by
  unfold Meaning.resolve
  split
  · exact fun _ _ => ⟨trivial, by simp, by simp, rfl⟩
  · exact fail _

theorem meet {columns : List String} (h : ∀ t ∈ columns, Shows t []) :
    (Meaning.meet columns).Writes (fun _ => True) (!columns.isEmpty) :=
  fun _ _ => ⟨trivial, by simp [Meaning.meet], h, by simp [Meaning.meet]⟩

theorem argument {m : Meaning String} (h : m.Writes (Shows · []) b) (e : Node) :
    (do
      let sql ← m
      Meaning.meet (if isConstant e then [] else [sql])
      return sql : Meaning String).Writes (Shows · []) (b || !isConstant e) := by
  refine h.bind fun sql hsql => ?_
  have hnoted : (!(if isConstant e then [] else [sql]).isEmpty) = !isConstant e := by
    cases isConstant e <;> rfl
  rw [← hnoted]
  refine (meet fun t ht => ?_).bind_last fun _ _ => pure hsql
  split at ht
  · cases ht
  · rwa [List.mem_singleton.1 ht]

theorem compute {m : Meaning String} (h : m.Writes (Shows · []) b) (column : Column) :
    (Meaning.compute column m).Writes (Shows · []) b := by
  refine h.bind_last fun sql hsql => ?_
  have hentry : Shows (sql ++ " AS " ++ quoteName column.name) [] :=
    hsql.between (.flat (by decide) rfl) (quoteName_shows _) (by decide) (by decide)
  intro t ht
  cases ht
  exact ⟨hsql, by simpa using hentry, by simp, rfl⟩

theorem ownColumns (h : m.Writes P b) :
    m.ownColumns.Writes (fun x => P x.1 ∧ ∀ e ∈ x.2.entries, Shows e.2 []) b := by
  intro x hx
  cases hm : m.result with
  | error e => simp [Meaning.ownColumns, hm, Except.map] at hx
  | ok a =>
    obtain ⟨hp, hnotes⟩ := h a hm
    simp only [Meaning.ownColumns, hm, Except.map, Except.ok.injEq] at hx
    subst hx
    refine ⟨⟨hp, fun e he => ?_⟩, by simp [Meaning.ownColumns], hnotes.met, hnotes.isEmpty⟩
    exact (Keyed.mem_of_mem_insertAll he).elim (hnotes.computed e) (by simp [Keyed.empty])

theorem ownScope (h : m.Writes P b) :
    m.ownScope.Writes (fun x => (∀ t ∈ x.2, Shows t []) ∧ x.2.isEmpty = !b) false := by
  intro x hx
  cases hm : m.result with
  | error e => simp [Meaning.ownScope, hm, Except.map] at hx
  | ok a =>
    obtain ⟨-, hnotes⟩ := h a hm
    simp only [Meaning.ownScope, hm, Except.map, Except.ok.injEq] at hx
    subst hx
    exact ⟨⟨hnotes.met, hnotes.isEmpty⟩, hnotes.computed, by simp [Meaning.ownScope], rfl⟩

theorem list {γ : Type} {x : γ → Position → Meaning α} {noted : γ → Bool} {as : List γ}
    (h : ∀ a ∈ as, ∀ q, (x a q).Writes P (noted a)) (p : Position) (j : Nat) :
    (Meaning.list p j (as.map x)).Writes (fun ts => (∀ t ∈ ts, P t) ∧ ts.length = as.length)
      (as.any noted) := by
  induction as generalizing j with
  | nil => exact pure ⟨by simp, rfl⟩
  | cons a as ih =>
    rw [List.forall_mem_cons] at h
    rw [List.map_cons, Meaning.list, List.any_cons]
    refine (h.1 (j :: p)).bind fun t ht => (ih h.2 (j + 1)).bind_last fun ts hts => pure ?_
    exact ⟨List.forall_mem_cons.2 ⟨ht, hts.1⟩, by simp [hts.2]⟩

theorem groups {calls : CallGroup → AnalyticScope → Position → Meaning (List String)}
    {P : CallGroup → List String → Prop} {gs : List CallGroup}
    (h : ∀ g ∈ gs, ∀ inner : AnalyticScope, inner.Settled → ∀ q,
      (calls g inner q).Writes (P g) (g.calls.any (·.expr.notes)))
    (p : Position) (j : Nat) {scope : AnalyticScope} (hscope : scope.Settled) :
    (Meaning.groups p j scope (gs.map fun g => (g, calls g))).Writes (fun _ => True)
      (gs.any (·.notes)) := by
  induction gs generalizing j scope with
  | nil => exact pure trivial
  | cons g gs ih =>
    rw [List.forall_mem_cons] at h
    have hopened := AnalyticScope.Settled.openGroup g scope
    have hnoted : g.notes =
        (!(openGroup g scope).columns.isEmpty || g.calls.any (·.expr.notes)) := by
      simp only [CallGroup.notes, Render.openGroup, AnalyticScope.reset, hscope.columns]
      cases g.partition.getD [] <;> cases g.order.getD [] <;> simp
    have hcolumns : ∀ t ∈ (openGroup g scope).columns, Shows t [] := by
      intro t ht
      simp only [Render.openGroup, AnalyticScope.reset, hscope.columns, List.nil_append,
        List.mem_map] at ht
      obtain ⟨column, -, rfl⟩ := ht
      exact quoteName_shows _
    rw [List.map_cons, Meaning.groups, List.any_cons, hnoted, Bool.or_assoc]
    exact (meet hcolumns).bind fun _ _ => (h.1 _ hopened (j :: p)).bind fun _ _ =>
      ih h.2 (j + 1) hopened

end Writes
end Meaning

/-- A scan shows the clauses of its tree, and starts with `SELECT` if it is a query. -/
def Node.WritesClauses (settings : Settings) (ρ : Naming) (p : Position) (n : Node) : Prop :=
  ∃ noted, (n.meaning settings ρ none p).Writes
    (fun sql => Shows sql n.clauses ∧ startsWith "SELECT" sql = n.isQuery) noted

section
variable {settings : Settings} (hencoder : settings.encoder = Literal.encode)
  (hlead : Config.isIdentifier settings.config.functionPrefix = true) (ρ : Naming)

include hlead in
theorem Meaning.Writes.callee {function : String} {catalog : Catalog}
    (hname : catalog.isWellNamed function = true) (p : Position) (type : SqlType) {α : Type}
    {P : α → Prop} {b : Bool} {f : Callee → Meaning α}
    (hf : ∀ name, Shows name [] → (f (.named name)).Writes P b) :
    (calleeMeaning settings ρ p function catalog type >>= f).Writes P b := by
  unfold Catalog.isWellNamed at hname
  unfold calleeMeaning
  cases hbuiltin : catalog.builtin? function with
  | none => simp [hbuiltin] at hname
  | some bare =>
    rw [hbuiltin, Option.any_some] at hname
    rw [Meaning.pure_bind]
    exact hf _ (catalog.mangle_shows hlead hname type)

include hlead

theorem Boundary.meaning_writes {edge : String} (hedge : IsFlat edge) (code : Int32)
    {offset : Meaning String} {b : Bool} (h : offset.Writes (Shows · []) b) :
    (Boundary.meaning settings edge code offset).Writes (fun ts => ∀ t ∈ ts, Balanced t)
      (rendersOffset code && b) := by
  have hoption (kind : BoundaryKind) {sql : String} (hsql : Balanced sql) :
      Balanced (optionCall settings.config.functionPrefix ("window_boundary_" ++ edge)
        [codeText kind.code, sql]) := by
    have hname : IsFlat ("window_boundary_" ++ edge) := by
      unfold IsFlat at *
      rw [String.toList_append, List.all_append, hedge]
      rfl
    have hcode : Balanced (codeText kind.code) := by cases kind <;> exact .flat (by decide)
    refine optionCall_balanced (Config.isFlat_of_isIdentifier hlead) hname ?_
    rw [List.forall_mem_cons, List.forall_mem_singleton]
    exact ⟨hcode, hsql⟩
  rw [← Bool.false_or (rendersOffset code && b)]
  refine .bind (.demand fun _ hkind => hkind) fun kind hkind => ?_
  have hrenders : rendersOffset code = kind.hasOffset := by rw [rendersOffset, hkind]
  rw [hrenders]
  split
  · rename_i hoffset
    rw [hoffset, Bool.true_and]
    refine h.bind_last fun sql hsql => ?_
    split
    · exact .fail _
    · exact .pure (by simpa using hoption kind hsql.balanced)
  · rename_i hoffset
    rw [Bool.eq_false_iff.2 hoffset, Bool.false_and]
    exact .pure (by simpa using hoption kind (.flat (by decide)))

theorem Boundary.writes {edge : String} (hedge : IsFlat edge) {scope : Option AnalyticScope}
    {q : Position} {o : Option Boundary} :
    (∀ e ∈ (o.bind (·.offset)).toList,
      (e.meaning settings ρ scope q).Writes (Shows · []) e.notes) →
    (match o with
      | none => pure []
      | some ⟨code, offset⟩ => Boundary.meaning settings edge code (match offset with
        | none => pure ""
        | some e => e.meaning settings ρ scope q) : Meaning (List String)).Writes
      (fun ts => ∀ t ∈ ts, Balanced t) (match o with
        | some ⟨code, some e⟩ => Boundary.rendersOffset code && e.notes
        | _ => false) := by
  intro h
  match o with
  | none => exact .pure (by simp)
  | some ⟨code, none⟩ =>
    rw [← Bool.and_false (rendersOffset code)]
    exact meaning_writes hlead hedge code (.pure (.flat (by decide) rfl))
  | some ⟨code, some e⟩ => exact meaning_writes hlead hedge code (h e (by simp))

theorem Frame.meaning_writes (unit : Int32) {first last : Meaning (List String)} {b c : Bool}
    (hfirst : first.Writes (fun ts => ∀ t ∈ ts, Balanced t) b)
    (hlast : last.Writes (fun ts => ∀ t ∈ ts, Balanced t) c) :
    (Frame.meaning settings unit first last).Writes (fun ts => ∀ t ∈ ts, Balanced t)
      (b || c) := by
  rw [← Bool.false_or (b || c)]
  refine .bind (.demand fun _ _ => trivial) fun unit _ => ?_
  refine hfirst.bind fun starts hstarts => hlast.bind_last fun ends hends => .pure ?_
  have hunit : Balanced (codeText unit.code) := by cases unit <;> exact .flat (by decide)
  rw [List.forall_mem_cons, List.forall_mem_append]
  refine ⟨optionCall_balanced (Config.isFlat_of_isIdentifier hlead) (by decide) ?_, hstarts, hends⟩
  simpa using hunit

theorem Node.analyticCall_writes {function : String} {arguments : List Node} {type : SqlType}
    {distinct : Bool} {frame : Option Frame} {scope : Option AnalyticScope}
    (hname : Catalog.window.isWellNamed function = true)
    (hscope : ∀ around ∈ scope, around.Settled)
    (harguments : ∀ e ∈ arguments, ∀ q,
      (e.meaning settings ρ scope q).Writes (Shows · []) e.notes)
    (hoffsets : ∀ e ∈ (frame.map Frame.offsets).getD [], ∀ q,
      (e.meaning settings ρ scope q).Writes (Shows · []) e.notes) (p : Position) :
    ((Node.analyticCall function arguments type distinct frame).meaning settings ρ scope
      p).Writes (Shows · []) (Node.analyticCall function arguments type distinct frame).notes := by
  have hflat := Config.isFlat_of_isIdentifier hlead
  rw [Node.meaning.eq_def, Node.notes.eq_def]
  cases scope with
  | none => exact .fail _
  | some around =>
    simp only [List.any_map, Function.id_comp]
    refine .bind (.list (fun e he q => (harguments e he q).argument e) _ _)
      fun args hargs => ?_
    split
    · exact .fail _
    · refine .callee hlead ρ hname p type fun name hname => ?_
      refine .bind_last (P := fun ts => ∀ t ∈ ts, Balanced t) ?_ fun frames hframes => .pure ?_
      · cases frame with
        | none => exact .pure (by simp)
        | some f =>
          obtain ⟨unit, first, last⟩ := f
          simp only [Option.map_some, Option.getD_some, Frame.offsets, List.mem_append] at hoffsets
          exact Frame.meaning_writes hlead unit
            (Boundary.writes hlead ρ (by decide) fun e he => hoffsets e (.inl he) _)
            (Boundary.writes hlead ρ (by decide) fun e he => hoffsets e (.inr he) _)
      · refine windowCallText_shows hname ?_ _
        have hrowId : Balanced (optionCall settings.config.functionPrefix "window_rowid"
            [quoteName settings.config.rowIdColumn]) :=
          optionCall_balanced hflat (by decide) (by simpa using (quoteName_shows _).balanced)
        simp only [List.forall_mem_append, List.forall_mem_singleton]
        exact ⟨⟨⟨fun t ht => (hargs.1 t ht).balanced,
          windowArguments_balanced hflat distinct (hscope around rfl)⟩, hframes⟩, hrowId⟩

include hencoder

theorem Node.Term.writes {e : Node} (h : e.Term) (scope : Option AnalyticScope)
    (hscope : ∀ around ∈ scope, around.Settled) (p : Position) :
    (e.meaning settings ρ scope p).Writes (Shows · []) e.notes := by
  have hflat := Config.isFlat_of_isIdentifier hlead
  induction h generalizing p with
  | literal value type =>
    simp only [Node.meaning, Node.notes, hencoder]
    exact .demand fun _ hsql => Literal.encode_shows hsql
  | columnRef column =>
    simp only [Node.meaning, Node.notes]
    exact .pure (quoteName_shows _)
  | @call function arguments type hname _ ih =>
    simp only [Node.meaning, Node.notes, List.any_map, Function.id_comp]
    refine .bind_last (.list (fun e he q => ih e he q) _ _) fun args hargs => ?_
    refine .callee hlead ρ hname p type fun name hname => .pure ?_
    exact callText_shows hname fun t ht => (hargs.1 t ht).balanced
  | @aggregateCall function arguments type distinct orderBy limit hname _ _ ih hlimit =>
    rw [Node.meaning.eq_def, Node.notes.eq_def]
    simp only [List.any_map, Function.id_comp]
    refine .bind (.list (fun e he q => ih e he q) _ _) fun args hargs => ?_
    refine .callee hlead ρ hname p type fun name hname => ?_
    refine .bind_last (P := fun ts => ∀ t ∈ ts, Balanced t) ?_ fun limits hlimits => .pure ?_
    · cases limit with
      | none => exact .pure (by simp)
      | some e =>
        refine .bind_last (hlimit e (by simp) (1 :: p)) fun sql hsql => .pure ?_
        simpa using optionCall_balanced hflat (by decide) (by simpa using hsql.balanced)
    · refine callText_shows hname ?_
      rw [List.forall_mem_append, List.forall_mem_append]
      exact ⟨⟨fun t ht => (hargs.1 t ht).balanced, aggregateArguments_balanced hflat _ _⟩, hlimits⟩
  | analyticCall hname _ _ ih hoffsets =>
    exact analyticCall_writes hlead ρ hname hscope ih hoffsets p

theorem ComputedColumn.list_writes {cs : List ComputedColumn} (hcs : ∀ c ∈ cs, c.expr.Term)
    (scope : Option AnalyticScope) (hscope : ∀ around ∈ scope, around.Settled) (p : Position) :
    (Meaning.list p 0 (cs.map fun c q =>
      Meaning.compute c.column (c.expr.meaning settings ρ scope q))).Writes
      (fun ts => (∀ t ∈ ts, Shows t []) ∧ ts.length = cs.length) (cs.any (·.expr.notes)) :=
  .list (fun c hc q => ((hcs c hc).writes hencoder hlead ρ scope hscope q).compute c.column) p 0

theorem Node.aggregateScan_writes {columns : List Column} {input : Node}
    {keys aggregates : List ComputedColumn} {p : Position} (hkeys : ∀ c ∈ keys, c.expr.Term)
    (haggregates : ∀ c ∈ aggregates, c.expr.Term)
    (ih : input.WritesClauses settings ρ (0 :: p)) :
    (Node.aggregateScan columns input keys aggregates).WritesClauses settings ρ p := by
  have hcolumns {cs : List ComputedColumn} (hcs : ∀ c ∈ cs, c.expr.Term) (q : Position) :=
    ComputedColumn.list_writes hencoder hlead ρ hcs none (by simp) q
  obtain ⟨_, hinput⟩ := ih
  rw [WritesClauses, Node.meaning]
  refine ⟨_, (hcolumns haggregates _).bind fun _ _ =>
    (hcolumns hkeys _).bind fun groups hgroups => hinput.bind fun sql hsql =>
      .pure ⟨?_, startsWith_groupText _ _⟩⟩
  -- there is a key text for each key
  have hempty : groups.isEmpty = keys.isEmpty := by
    have hlength := hgroups.2
    cases groups <;> cases keys <;> simp_all
  rw [clauses, ← hsql.2, ← hempty]
  exact groupText_shows hsql.1 hgroups.1

theorem Node.limitScan_writes {input limit : Node} {offset : Option Node} {p : Position}
    (hlimit : limit.Term) (hoffset : ∀ e ∈ offset.toList, e.Term)
    (ih : input.WritesClauses settings ρ (0 :: p)) :
    (Node.limitScan input limit offset).WritesClauses settings ρ p := by
  have hterm {e : Node} (he : e.Term) (q : Position) :=
    he.writes hencoder hlead ρ none (by simp) q
  obtain ⟨_, hinput⟩ := ih
  cases offset with
  | none =>
    rw [WritesClauses, Node.meaning]
    refine ⟨_, hinput.bind fun sql hsql => (hterm hlimit _).bind fun count hcount =>
      .pure ⟨limitText_shows hsql.1 hcount, ?_⟩⟩
    rw [String.append_assoc, startsWith_append _ (by simp), hsql.2, isQuery]
  | some e =>
    rw [WritesClauses, Node.meaning]
    refine ⟨_, hinput.bind fun sql hsql => (hterm hlimit _).bind fun count hcount =>
      (hterm (hoffset e (by simp)) _).bind fun skipped hskipped =>
        .pure ⟨offsetText_shows (limitText_shows hsql.1 hcount) hskipped, ?_⟩⟩
    rw [String.append_assoc, String.append_assoc, String.append_assoc,
      startsWith_append _ (by simp), hsql.2, isQuery]

theorem Node.analyticScan_writes {columns : List Column} {input : Node} {groups : List CallGroup}
    {p : Position} (hgroups : ∀ g ∈ groups, ∀ c ∈ g.calls, c.expr.Term)
    (ih : input.WritesClauses settings ρ (0 :: p)) :
    (Node.analyticScan columns input groups).WritesClauses settings ρ p := by
  obtain ⟨_, hinput⟩ := ih
  rw [WritesClauses, Node.meaning]
  have hcalls (g : CallGroup) (hg : g ∈ groups) (inner : AnalyticScope) (hinner : inner.Settled)
      (q : Position) :=
    ComputedColumn.list_writes hencoder hlead ρ (hgroups g hg) (some inner)
      (by simpa using hinner) q
  have hscope := Meaning.Writes.groups hcalls (1 :: p) 0 .empty
  refine ⟨_, hinput.bind fun sql hsql => hscope.ownScope.bind fun met hmet => .pure
    ⟨?_, startsWith_analyticText _ _ _⟩⟩
  have hclauses : (Node.analyticScan columns input groups).clauses =
      .source :: if met.2.isEmpty then [] else [.orderBy] := by
    rw [clauses, hmet.2]
    cases groups.any (·.notes) <;> rfl
  rw [hclauses]
  exact analyticText_shows _ hsql.1.balanced hmet.1

theorem Node.ScanTree.writes {n : Node} (h : n.ScanTree) (p : Position) :
    n.WritesClauses settings ρ p := by
  have hterm {e : Node} (he : e.Term) (q : Position) :=
    he.writes hencoder hlead ρ none (by simp) q
  have hcolumns {cs : List ComputedColumn} (hcs : ∀ c ∈ cs, c.expr.Term) (q : Position) :=
    ComputedColumn.list_writes hencoder hlead ρ hcs none (by simp) q
  -- what the input is and whether it is a query go together: grouping looks at the text
  induction h generalizing p with
  | singleRow =>
    rw [WritesClauses, Node.meaning]
    exact ⟨_, .pure ⟨.flat (by decide) rfl, rfl⟩⟩
  | tableScan name columns =>
    rw [WritesClauses, Node.meaning]
    refine ⟨_, (Meaning.Writes.resolve ρ _).bind fun name _ => .pure ⟨?_, ?_⟩⟩
    · exact Shows.append_quoted (.flat (by decide) rfl) (by decide) name
    · simp [startsWith, List.isPrefixOf, isQuery]
  | @arrayScan input array element _ harray ih =>
    cases input with
    | some n =>
      rw [WritesClauses, Node.meaning]
      exact ⟨false, .fail _⟩
    | none =>
      rw [WritesClauses, Node.meaning]
      refine ⟨_, (hterm harray _).bind fun sql hsql => .pure ⟨?_, startsWith_arrayText _ _ _⟩⟩
      exact arrayText_shows (Config.isFlat_of_isIdentifier hlead) element.name hsql.balanced
  | @filterScan input condition _ hcondition ih =>
    obtain ⟨_, hinput⟩ := ih (0 :: p)
    rw [WritesClauses, Node.meaning]
    refine ⟨_, hinput.bind fun sql hsql => (hterm hcondition _).bind fun filter hfilter =>
      .pure ⟨?_, ?_⟩⟩
    · rw [clauses]
      exact filterText_shows hsql.1 (filterKeyword_shows input) hfilter
    · rw [String.append_assoc, String.append_assoc, String.append_assoc,
        startsWith_append _ (by simp), hsql.2, isQuery]
  | @projectScan columns computed input hcomputed _ ih =>
    obtain ⟨_, hinput⟩ := ih (1 :: p)
    rw [WritesClauses, Node.meaning]
    refine ⟨_, (hcolumns hcomputed _).ownColumns.bind fun own hown =>
      hinput.ownColumns.bind fun below hbelow => .pure ⟨?_, startsWith_selectText _ _⟩⟩
    exact selectText_shows (selectItems_shows hown.2 hbelow.2 columns) hbelow.1.1
  | aggregateScan _ hkeys haggregates ih =>
    exact aggregateScan_writes hencoder hlead ρ hkeys haggregates (ih (0 :: p))
  | @orderByScan input items _ ih =>
    obtain ⟨_, hinput⟩ := ih (0 :: p)
    rw [WritesClauses, Node.meaning]
    refine ⟨_, hinput.bind fun sql hsql => .pure ⟨orderByText_shows hsql.1 items, ?_⟩⟩
    rw [startsWith_orderByText, hsql.2, isQuery]
  | limitScan _ hlimit hoffset ih =>
    exact limitScan_writes hencoder hlead ρ hlimit hoffset (ih (0 :: p))
  | analyticScan _ hgroups ih =>
    exact analyticScan_writes hencoder hlead ρ hgroups (ih (0 :: p))

end

/-- One `SELECT`, each other clause at most once, and all in order. -/
def IsOneQuery (ks : List Clause) : Prop :=
  ks.count .select = 1 ∧ (∀ k, ks.count k ≤ 1) ∧ ks.Pairwise fun k l => k.rank ≤ l.rank

theorem Clause.eq_of_rank_eq {k l : Clause} (h : k.rank = l.rank) : k = l := by
  revert h
  cases k <;> cases l <;> decide

theorem isOneQuery_cons {ks : List Clause} :
    IsOneQuery (.select :: ks) ↔ .select ∉ ks ∧ ks.Pairwise fun k l => k.rank < l.rank := by
  constructor
  · rintro ⟨-, hcount, hsorted⟩
    have hnodup := List.nodup_cons.1 (List.nodup_iff_count_le_one.2 hcount)
    refine ⟨hnodup.1, hnodup.2.imp₂ ?_ (List.pairwise_cons.1 hsorted).2⟩
    exact fun k l hne hle => lt_of_le_of_ne hle fun h => hne (Clause.eq_of_rank_eq h)
  · rintro ⟨hselect, hsorted⟩
    have hnodup : (Clause.select :: ks).Nodup := by
      refine List.nodup_cons.2 ⟨hselect, hsorted.imp fun hlt h => ?_⟩
      rw [h] at hlt
      exact lt_irrefl _ hlt
    refine ⟨List.count_eq_one_of_mem hnodup List.mem_cons_self,
      List.nodup_iff_count_le_one.1 hnodup, List.pairwise_cons.2 ⟨fun k _ => ?_, ?_⟩⟩
    · exact Nat.zero_le _
    · exact hsorted.imp fun h => h.le

namespace Statement

/-- The clauses of a projection over scans are those of its tree. They make one query exactly if the
input shows no `SELECT` and has its clauses in order, each once. -/
theorem toSql_clauses (s : Statement) (settings : Settings) (sql : String)
    (columns : List Column) (computed : List ComputedColumn) (input : Node)
    (hencoder : settings.encoder = Literal.encode) (hconfig : settings.config.validate = .ok ())
    (hroot : s.root = .projectScan columns computed input) (htree : s.root.ScanTree)
    (h : (s.toSql settings).result = .ok sql) :
    clausesIn sql = .select :: input.clauses ∧
      (IsOneQuery (clausesIn sql) ↔
        .select ∉ input.clauses ∧ input.clauses.Pairwise fun k l => k.rank < l.rank) := by
  rw [s.toSql_result settings rfl (s.naming_agrees settings)] at h
  obtain ⟨noted, hwrites⟩ := htree.writes hencoder (Config.isIdentifier_of_validate hconfig) _ []
  have hclauses : clausesIn sql = .select :: input.clauses := by
    rw [(hwrites sql h).1.1.clauses, hroot, Node.clauses]
  exact ⟨hclauses, by rw [hclauses, isOneQuery_cons]⟩

def selectTwice : Statement where
  declaredPath := []
  namePaths := [["t"]]
  root := .projectScan [⟨"a", "t", .scalar .int64⟩] []
    (.projectScan [⟨"a", "t", .scalar .int64⟩] [] (.tableScan "t" []))

/-- A projection of a projection has two `SELECT`s side by side. -/
theorem selectTwice_clauses : ∃ sql, (selectTwice.toSql {}).result = .ok sql ∧
    selectTwice.root.ScanTree ∧ clausesIn sql = [.select, .select, .source] ∧
      ¬ IsOneQuery (clausesIn sql) := by
  have hsql : (selectTwice.toSql {}).result = .ok "SELECT `a` SELECT `a` FROM `t`" := by
    decide +kernel
  have hclauses : clausesIn "SELECT `a` SELECT `a` FROM `t`" = [.select, .select, .source] := by
    decide +kernel
  refine ⟨_, hsql, .projectScan (by simp) (.projectScan (by simp) (.tableScan _ _)), hclauses, ?_⟩
  rw [hclauses, isOneQuery_cons]
  decide

def countLarge : Statement where
  declaredPath := []
  namePaths := [["t"]]
  root := .projectScan [⟨"a", "", .scalar .int64⟩, ⟨"n", "", .scalar .int64⟩] []
    (.limitScan
      (.orderByScan
        (.filterScan
          (.aggregateScan [] (.filterScan (.tableScan "t" []) large)
            [⟨⟨"a", "", .scalar .int64⟩, a⟩]
            [⟨⟨"n", "", .scalar .int64⟩,
              .aggregateCall "count" [a] (.scalar .int64) false [] none⟩])
          large)
        [⟨⟨"a", "", .scalar .int64⟩, true⟩])
      (.literal (.int 10) (.scalar .int64)) none)
where
  a : Node := .columnRef ⟨"a", "t", .scalar .int64⟩
  large : Node := .call "$greater" [a, .literal (.string "SELECT (") (.scalar .string)]
    (.scalar .bool)

theorem countLarge_clauses : ∃ sql, (countLarge.toSql {}).result = .ok sql ∧
    IsOneQuery (clausesIn sql) := by
  have hsql : (countLarge.toSql {}).result = .ok
      ("SELECT `a` AS `a`,bqlite_count_int64(`a`) AS `n` FROM `t` " ++
        "WHERE bqlite_greater_bool(`a`,'SELECT (') GROUP BY `a` " ++
        "HAVING bqlite_greater_bool(`a`,'SELECT (') ORDER BY `a` DESC LIMIT 10") := by
    decide +kernel
  have ha : countLarge.a.Term := .columnRef _
  have hlarge : countLarge.large.Term :=
    .call (by decide +kernel) (by simpa using ⟨ha, .literal _ _⟩)
  have htree : countLarge.root.ScanTree :=
    .projectScan (by simp) <| .limitScan (.orderByScan <| .filterScan
      (.aggregateScan (.filterScan (.tableScan _ _) hlarge) (by simpa using ha)
        (by simpa using .aggregateCall (by decide +kernel) (by simpa using ha) (by simp)))
      hlarge) (.literal _ _) (by simp)
  refine ⟨_, hsql, (toSql_clauses countLarge {} _ _ _ _ rfl (by decide) rfl htree hsql).2.2 ?_⟩
  decide +kernel

end Statement

end ResolvedSql
