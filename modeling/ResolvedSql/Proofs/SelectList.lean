import ResolvedSql.Proofs.Closure
import ResolvedSql.Proofs.DerivedTables
import ResolvedSql.Proofs.QuotedNames
/-!
The select list of a projection. Two expressions at most wait for a column name, one computed by the
projection and one computed below it. The listings of the name take them in this order, and what is
left over is dropped. Every expression carries the name that it waits for, so none is listed under
another one.
-/
set_option autoImplicit false

namespace ResolvedSql

open Text

namespace Render

/-- The expressions that wait for a name, in the order in which the listings of it take them. -/
def waiting (own below : Keyed String) (name : String) : List String :=
  (own.find? name).toList ++ (below.find? name).toList

def listings (columns : List Column) (name : String) : Nat := columns.countP (·.name = name)

theorem selectItems_cons (own below : Keyed String) (c : Column) (r : List Column) :
    ∃ own' below', selectItems own below (c :: r) =
        (waiting own below c.name).head?.getD (quoteName c.name) :: selectItems own' below' r ∧
      ∀ name, waiting own' below' name =
        if name = c.name then (waiting own below name).tail else waiting own below name := by
  rw [selectItems_find?]
  cases hown : own.find? c.name with
  | some sql =>
    refine ⟨own.erase c.name, below, by simp [waiting, hown], fun name => ?_⟩
    by_cases h : name = c.name
    · subst h
      simp [waiting, hown]
    · simp [waiting, h]
  | none =>
    cases hbelow : below.find? c.name with
    | some sql =>
      refine ⟨own, below.erase c.name, by simp [waiting, hown, hbelow], fun name => ?_⟩
      by_cases h : name = c.name
      · subst h
        simp [waiting, hown, hbelow]
      · simp [waiting, h]
    | none =>
      refine ⟨own, below, by simp [waiting, hown, hbelow], fun name => ?_⟩
      by_cases h : name = c.name
      · subst h
        simp [waiting, hown, hbelow]
      · simp [h]

theorem length_selectItems (own below : Keyed String) (columns : List Column) :
    (selectItems own below columns).length = columns.length := by
  induction columns generalizing own below with
  | nil => rfl
  | cons c r ih =>
    obtain ⟨own', below', hitems, -⟩ := selectItems_cons own below c r
    rw [hitems, List.length_cons, List.length_cons, ih]

theorem getElem?_selectItems (own below : Keyed String) {columns : List Column} {i : Nat}
    {c : Column} (hc : columns[i]? = some c) :
    (selectItems own below columns)[i]? =
      some ((waiting own below c.name)[listings (columns.take i) c.name]?.getD
        (quoteName c.name)) := by
  induction columns generalizing own below i with
  | nil => simp at hc
  | cons d r ih =>
    obtain ⟨own', below', hitems, hwaiting⟩ := selectItems_cons own below d r
    rw [hitems]
    cases i with
    | zero =>
      obtain rfl : d = c := by simpa using hc
      simp [listings, List.head?_eq_getElem?]
    | succ i =>
      rw [List.getElem?_cons_succ] at hc ⊢
      rw [ih own' below' hc, hwaiting]
      by_cases h : d.name = c.name
      · simp [listings, h]
      · simp [listings, h, Ne.symm h]

theorem count_selectItems {own below : Keyed String} {sql name : String}
    (hbare : ∀ other, sql ≠ quoteName other)
    (hname : ∀ other, sql ∈ waiting own below other → other = name) (columns : List Column) :
    (selectItems own below columns).count sql =
      ((waiting own below name).take (listings columns name)).count sql := by
  induction columns generalizing own below with
  | nil => simp [selectItems, listings]
  | cons c r ih =>
    obtain ⟨own', below', hitems, hwaiting⟩ := selectItems_cons own below c r
    have hrest : ∀ other, sql ∈ waiting own' below' other → other = name := by
      intro other h
      rw [hwaiting] at h
      split at h
      · exact hname other (List.mem_of_mem_tail h)
      · exact hname other h
    rw [hitems, List.count_cons, ih hrest, hwaiting]
    by_cases h : name = c.name
    · subst h
      cases hw : waiting own below c.name with
      | nil => simp [(hbare c.name).symm]
      | cons first more => simp [listings, List.count_cons]
    · have hhead : (waiting own below c.name).head?.getD (quoteName c.name) ≠ sql := by
        cases hw : waiting own below c.name with
        | nil => exact (hbare c.name).symm
        | cons first more =>
          rintro rfl
          exact h (hname c.name (by rw [hw]; exact List.mem_cons_self)).symm
      simp [listings, h, Ne.symm h, hhead]

theorem selectText_eq (items : List String) (input : String) :
    selectText items input =
      "SELECT " ++ commas items ++ (if input = "" then "" else " " ++ input) := by
  unfold selectText
  split
  · rw [String.append_empty]
  · rw [String.append_assoc]

theorem getLast?_append_as (e : String) : (e.toList ++ " AS ".toList).getLast? ≠ some '`' := by
  simp

theorem eq_of_as_eq_as {e f name other : String}
    (h : e ++ " AS " ++ quoteName name = f ++ " AS " ++ quoteName other) : name = other := by
  have hlist := congrArg String.toList h
  simp only [String.toList_append] at hlist
  exact (append_quoted_injective (getLast?_append_as e) (getLast?_append_as f) hlist).2

theorem as_ne_quoteName (e name other : String) :
    e ++ " AS " ++ quoteName name ≠ quoteName other := by
  intro h
  have hlist := congrArg String.toList h
  rw [String.toList_append, String.toList_append, ← List.nil_append (quoteName other).toList]
    at hlist
  have hnil := (append_quoted_injective (getLast?_append_as e) (by simp) hlist).1
  simp at hnil

/-- Every expression in the map carries the name that it waits for. -/
def Labelled (m : Keyed String) : Prop :=
  ∀ name sql, m.find? name = some sql → ∃ e, sql = e ++ " AS " ++ quoteName name

theorem labelled_empty : Labelled ∅ := by
  intro name sql h
  cases h

theorem Labelled.insert {m : Keyed String} (h : Labelled m) (name sql : String) :
    Labelled (m.insert name (sql ++ " AS " ++ quoteName name)) := by
  intro other text hfind
  rw [Keyed.find?_insert] at hfind
  split at hfind
  · rename_i heq
    obtain rfl := Option.some.inj hfind
    exact ⟨sql, by rw [heq]⟩
  · exact h other text hfind

def KeepsLabels {α : Type} (x : Render α) : Prop :=
  ∀ settings s, Labelled s.pending → Labelled (x.after settings s).pending

theorem KeepsLabels.bind {α β : Type} {x : Render α} {f : α → Render β} (hx : x.KeepsLabels)
    (hf : ∀ a, (f a).KeepsLabels) : (x >>= f).KeepsLabels := fun settings =>
  after_bind_of (R := fun s t => Labelled s.pending → Labelled t.pending)
    (fun h h' hs => h' (h hs)) (hx settings) fun a => hf a settings

theorem keepsLabels_closed : Closed (fun _ x => x.KeepsLabels) (fun _ x => x.KeepsLabels) where
  pure _ _ _ h := h
  bind := KeepsLabels.bind
  throw _ _ _ h := h
  read _ _ h := h
  report _ _ _ _ h := h
  nextName settings s h := by
    unfold after
    rw [nextName_apply]
    cases s.cursor.next? <;> exact h
  addPending column sql _ _ h := h.insert column.name sql
  columnScope hx settings s h := by
    rw [after_columnScope]
    exact h
  currentScope settings s h := by
    unfold after
    rw [currentScope_apply]
    cases s.analytic <;> exact h
  addColumn _ settings s h := by
    rw [after_modifyScope]
    cases s.analytic <;> exact h
  grouped hx := hx
  groupBind := KeepsLabels.bind
  openGroup _ settings s h := by
    rw [after_modifyScope]
    cases s.analytic <;> exact h
  analyticScope hx settings s h := by
    rw [after_analyticScope]
    exact hx settings _ h

theorem KeepsLabels.labelled {α : Type} {x : Render α} (hx : x.KeepsLabels) {settings : Settings}
    {s final : State} {a : α} (h : x.run settings { s with pending := ∅ } = .ok a final) :
    Labelled final.pending := by
  have hfinal := hx settings { s with pending := ∅ } labelled_empty
  rwa [after_of_run h] at hfinal

/-- What a select list makes of the expressions computed by its projection and below it: one item
for each column, by the listings of its name so far, and no expression under a name that is not its
own nor more often than it waits. -/
structure Selects (own below : Keyed String) (columns : List Column) (items : List String) :
    Prop where
  length : items.length = columns.length
  item (i : Nat) (c : Column) (hc : columns[i]? = some c) :
    items[i]? = some ((waiting own below c.name)[listings (columns.take i) c.name]?.getD
      (quoteName c.name))
  label (name sql : String) (h : sql ∈ waiting own below name) :
    ∃ e, sql = e ++ " AS " ++ quoteName name
  place (name sql : String) (h : sql ∈ waiting own below name) (i : Nat)
    (hi : items[i]? = some sql) : ∃ c, columns[i]? = some c ∧ c.name = name
  count (name e : String) :
    items.count (e ++ " AS " ++ quoteName name) =
      ((waiting own below name).take (listings columns name)).count
        (e ++ " AS " ++ quoteName name)

theorem Labelled.of_mem_waiting {own below : Keyed String} (hown : Labelled own)
    (hbelow : Labelled below) {name sql : String} (h : sql ∈ waiting own below name) :
    ∃ e, sql = e ++ " AS " ++ quoteName name := by
  rcases List.mem_append.1 h with h | h
  · exact hown name sql (Option.mem_toList.1 h)
  · exact hbelow name sql (Option.mem_toList.1 h)

theorem selects_selectItems {own below : Keyed String} (hown : Labelled own)
    (hbelow : Labelled below) (columns : List Column) :
    Selects own below columns (selectItems own below columns) := by
  have hname (name e other : String) (h : e ++ " AS " ++ quoteName name ∈ waiting own below other) :
      other = name := by
    obtain ⟨f, hf⟩ := Labelled.of_mem_waiting hown hbelow h
    exact (eq_of_as_eq_as hf).symm
  refine ⟨length_selectItems own below columns, fun i c hc => getElem?_selectItems own below hc,
    fun name sql h => Labelled.of_mem_waiting hown hbelow h, fun name sql h i hi => ?_,
    fun name e => count_selectItems (as_ne_quoteName e name) (hname name e) columns⟩
  obtain ⟨e, rfl⟩ := Labelled.of_mem_waiting hown hbelow h
  have hlt : i < columns.length := by
    rw [← length_selectItems own below columns]
    exact (List.getElem?_eq_some_iff.1 hi).1
  have hc : columns[i]? = some columns[i] := List.getElem?_eq_getElem hlt
  refine ⟨columns[i], hc, ?_⟩
  rw [getElem?_selectItems own below hc, Option.some.injEq] at hi
  cases hsql : (waiting own below columns[i].name)[listings (columns.take i) columns[i].name]? with
  | none =>
    rw [hsql] at hi
    exact (as_ne_quoteName e name _ hi.symm).elim
  | some sql =>
    rw [hsql] at hi
    obtain rfl : sql = e ++ " AS " ++ quoteName name := hi
    exact hname name e _ (List.mem_of_getElem? hsql)

end Render

namespace Node

open Render

theorem projectScan_run_eq_ok {columns : List Column} {computed : List ComputedColumn}
    {input : Node} {settings : Settings} {s final : State} {sql : String} :
    (projectScan columns computed input).render.run settings s = .ok sql final ↔
      ∃ texts mid text last,
        (ComputedColumn.renderAll computed).run settings { s with pending := ∅ } = .ok texts mid ∧
        input.render.run settings { mid with pending := ∅ } = .ok text last ∧
        sql = selectText (selectItems mid.pending last.pending columns) text ∧
        final = { last with pending := s.pending } := by
  rw [Node.render, bind_run_eq_ok]
  constructor
  · rintro ⟨⟨texts, own⟩, _, hown, h⟩
    obtain ⟨mid, hcomputed, rfl, rfl⟩ := columnScope_run_eq_ok.1 hown
    obtain ⟨⟨text, below⟩, _, hbelow, h⟩ := bind_run_eq_ok.1 h
    obtain ⟨last, hinput, rfl, rfl⟩ := columnScope_run_eq_ok.1 hbelow
    obtain ⟨rfl, rfl⟩ := pure_run_eq_ok.1 h
    exact ⟨texts, mid, text, last, hcomputed, hinput, rfl, rfl⟩
  · rintro ⟨texts, mid, text, last, hcomputed, hinput, rfl, rfl⟩
    refine ⟨(texts, mid.pending), _, columnScope_run_eq_ok.2 ⟨mid, hcomputed, rfl, rfl⟩, ?_⟩
    refine bind_run_eq_ok.2 ⟨(text, last.pending), _, ?_, rfl⟩
    exact columnScope_run_eq_ok.2 ⟨last, hinput, rfl, rfl⟩

theorem labelled_computed {computed : List ComputedColumn} {settings : Settings} {s final : State}
    {texts : List String}
    (h : (ComputedColumn.renderAll computed).run settings { s with pending := ∅ } =
      .ok texts final) : Labelled final.pending :=
  (keepsLabels_closed.computedColumns fun c _ => c.expr.render_closed keepsLabels_closed).labelled h

/-- A projection that has SQL first renders its computed columns and then its input, both with
nothing pending, and it selects what is pending after each of them. -/
theorem projectScan_selects {columns : List Column} {computed : List ComputedColumn}
    {input : Node} {settings : Settings} {s final : State} {sql : String}
    (h : (projectScan columns computed input).render.run settings s = .ok sql final) :
    ∃ texts mid text last items,
      (ComputedColumn.renderAll computed).run settings { s with pending := ∅ } = .ok texts mid ∧
      input.render.run settings { mid with pending := ∅ } = .ok text last ∧
      Selects mid.pending last.pending columns items ∧
      sql = "SELECT " ++ commas items ++ (if text = "" then "" else " " ++ text) := by
  obtain ⟨texts, mid, text, last, hcomputed, hinput, rfl, -⟩ := projectScan_run_eq_ok.1 h
  have hbelow := (input.render_closed keepsLabels_closed).labelled hinput
  exact ⟨texts, mid, text, last, selectItems mid.pending last.pending columns, hcomputed, hinput,
    selects_selectItems (labelled_computed hcomputed) hbelow columns, selectText_eq _ _⟩

def listedThrice : Node :=
  let int (name : String) : Column := ⟨name, "", .scalar .int64⟩
  let number (n : Int64) : Node := .literal (.int n) (.scalar .int64)
  .projectScan [int "a", int "b", int "a", int "a"] [⟨int "a", number 1⟩, ⟨int "d", number 2⟩]
    (.aggregateScan [] (.tableScan "t" []) [] [⟨int "a", number 3⟩, ⟨int "b", number 4⟩])

theorem listedThrice_selects :
    ∃ columns computed input sql final, listedThrice = projectScan columns computed input ∧
      listedThrice.render.run {} oneTable = .ok sql final ∧
      sql = "SELECT 1 AS `a`,4 AS `b`,3 AS `a`,`a` FROM `t`" ∧
      ∃ texts mid text last items,
        (ComputedColumn.renderAll computed).run {} { oneTable with pending := ∅ } = .ok texts mid ∧
        input.render.run {} { mid with pending := ∅ } = .ok text last ∧
        Selects mid.pending last.pending columns items ∧
        sql = "SELECT " ++ commas items ++ (if text = "" then "" else " " ++ text) := by
  have hrun : listedThrice.render.run {} oneTable =
      .ok "SELECT 1 AS `a`,4 AS `b`,3 AS `a`,`a` FROM `t`" _ := rfl
  exact ⟨_, _, _, _, _, rfl, hrun, rfl, projectScan_selects hrun⟩

end Node
end ResolvedSql
