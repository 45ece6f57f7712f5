import ResolvedSql.Proofs.PendingColumns
import ResolvedSql.Proofs.SelectList
set_option autoImplicit false

namespace ResolvedSql

open Text Render

namespace Keyed

variable {α : Type}

theorem find?_eq_none_iff {m : Keyed α} {name : String} :
    m.find? name = none ↔ name ∉ names m.entries := by
  rw [find?, List.lookup_eq_none_iff, names, List.mem_map]
  grind

end Keyed

namespace Render

variable {α : Type}

/-- A rendering by itself leaves some columns pending; what was pending before stays so under the
other names. -/
theorem Isolated.run_eq_ok {x : Render α} (hx : x.Isolated) {settings : Settings} {s final : State}
    {a : α} (h : x.run settings s = .ok a final) :
    ∃ alone, x.run settings { s with pending := ∅ } = .ok a alone ∧
      ∀ name, final.pending.find? name =
        (alone.pending.find? name).or (s.pending.find? name) := by
  obtain ⟨result, last, computed, hrun⟩ := hx settings s
  have hfinal : conclude result { last with pending := s.pending.insertAll computed } =
      .ok a final := (hrun s.pending).symm.trans h
  cases result with
  | error e => cases hfinal
  | ok b =>
    cases hfinal
    exact ⟨_, hrun ∅, s.pending.find?_insertAll computed⟩

end Render

namespace Node

/-- A name is pending after a rendering if it was before or if the tree leaves it. -/
theorem find?_pending_eq_none {n : Node} {settings : Settings} {s final : State} {sql : String}
    (h : n.render.run settings s = .ok sql final) (name : String) :
    final.pending.find? name = none ↔
      s.pending.find? name = none ∧ ¬ n.Leaves settings (s.naming settings n) [] name := by
  obtain ⟨alone, hrun, hpending⟩ := (n.render_closed Isolated.closed).run_eq_ok h
  have halone : alone.pending.find? name = none ↔
      ¬ n.Leaves settings (s.naming settings n) [] name := by
    rw [Keyed.find?_eq_none_iff]
    exact not_congr (mem_pending_after (s := { s with pending := ∅ }) rfl hrun name)
  rw [hpending, Option.or_eq_none_iff, halone, and_comm]

end Node

namespace ComputedColumn

/-- Rendering the columns one after the other leaves a column of this name pending: one of them, or
one that an expression of theirs leaves. -/
def Leave (settings : Settings) : State → List ComputedColumn → String → Prop
  | _, [], _ => False
  | s, c :: r, name =>
    c.expr.Leaves settings (s.naming settings c.expr) [] name ∨ c.column.name = name ∨
      Leave settings (c.render.after settings s) r name

theorem find?_pending_eq_none {cs : List ComputedColumn} {settings : Settings} {s final : State}
    {texts : List String}
    (h : (each ComputedColumn.render cs).run settings s = .ok texts final) (name : String) :
    final.pending.find? name = none ↔
      s.pending.find? name = none ∧ ¬ Leave settings s cs name := by
  induction cs generalizing s texts with
  | nil =>
    obtain ⟨-, rfl⟩ := pure_run_eq_ok.1 h
    simp [Leave]
  | cons c r ih =>
    obtain ⟨sql, t, sqls, hc, hr, rfl⟩ := each_cons_run_eq_ok.1 h
    have hrest := ih hr
    rw [hrest, Leave, after_of_run hc]
    obtain ⟨u, hexpr, rfl⟩ := render_run_eq_ok.1 hc
    have hexpr := Node.find?_pending_eq_none hexpr name
    rw [Keyed.find?_insert]
    by_cases hname : name = c.column.name
    · simp [hname]
    · simp [hname, Ne.symm hname, hexpr, and_assoc]

/-- From `s` on, `front` is rendered and then the expression of `c`, with the text `sql`, up to `t`.
From there on, with nothing pending, `back` is rendered up to `u`. -/
def Between (settings : Settings) (s : State) (front : List ComputedColumn) (c : ComputedColumn)
    (back : List ComputedColumn) (sql : String) (t u : State) : Prop :=
  (∃ texts mid, (renderAll front).run settings s = .ok texts mid ∧
    c.expr.render.run settings mid = .ok sql t) ∧
  ∃ texts, (renderAll back).run settings { t with pending := ∅ } = .ok texts u

theorem Between.find?_eq_none {settings : Settings} {s t u : State}
    {front back : List ComputedColumn} {c : ComputedColumn} {sql : String}
    (h : Between settings s front c back sql t u) (name : String) :
    u.pending.find? name = none ↔ ¬ Leave settings { t with pending := ∅ } back name := by
  obtain ⟨-, _, hback⟩ := h
  rw [renderAll_eq] at hback
  exact (find?_pending_eq_none hback name).trans (and_iff_right rfl)

/-- Under the name of a column is pending what is left by the rest that is rendered after it, or
else the column. -/
theorem run_cut {α : Type} {x : Render α} (hx : x.Isolated) {front back : List ComputedColumn}
    {c : ComputedColumn} {settings : Settings} {s mid final : State} {texts : List String} {a : α}
    (h : (each ComputedColumn.render (front ++ c :: back)).run settings s = .ok texts mid)
    (hrest : x.run settings mid = .ok a final) :
    ∃ sql t u v, Between settings s front c back sql t u ∧ x.run settings u = .ok a v ∧
      final.pending.find? c.column.name =
        some ((v.pending.find? c.column.name).getD (c.entry sql)) := by
  obtain ⟨before, s₁, _, hfront, h, -⟩ := each_append_run_eq_ok.1 h
  obtain ⟨sql, _, later, hc, hback, -⟩ := each_cons_run_eq_ok.1 h
  obtain ⟨t, hexpr, rfl⟩ := render_run_eq_ok.1 hc
  have hisolated : (each ComputedColumn.render back >>= fun texts => x >>= fun a =>
      pure (texts, a)).Isolated := by
    refine .bind (Isolated.closed.each fun c _ => ?_) fun _ => hx.bind fun _ =>
      Isolated.closed.pure _
    exact Isolated.closed.computedColumn (c.expr.render_closed Isolated.closed)
  obtain ⟨v, hrun, hpending⟩ := hisolated.run_eq_ok
    (bind_run_eq_ok.2 ⟨later, mid, hback, bind_run_eq_ok.2 ⟨a, final, hrest, rfl⟩⟩)
  obtain ⟨_, u, hlater, hrun⟩ := bind_run_eq_ok.1 hrun
  obtain ⟨_, _, hx, hrun⟩ := bind_run_eq_ok.1 hrun
  cases hrun
  rw [← renderAll_eq] at hfront hlater
  refine ⟨sql, t, u, v, ⟨⟨before, s₁, hfront, hexpr⟩, later, hlater⟩, hx, ?_⟩
  rw [hpending, Keyed.find?_insert, if_pos rfl]
  cases v.pending.find? c.column.name <;> rfl

end ComputedColumn

namespace Render

theorem Selects.mem_iff {own below : Keyed String} {columns : List Column} {items : List String}
    (h : Selects own below columns items) (c : ComputedColumn) (sql : String) :
    c.entry sql ∈ items ↔
      c.entry sql ∈ (waiting own below c.column.name).take (listings columns c.column.name) := by
  rw [← List.count_pos_iff, ← List.count_pos_iff]
  exact (congrArg (0 < ·) (h.count c.column.name sql)).to_iff

/-- What the first listing takes, and what is left for the second. -/
theorem mem_take_waiting {own below : Keyed String} {name first sql : String}
    (hown : own.find? name = some first) (k : Nat) :
    sql ∈ (waiting own below name).take k ↔
      0 < k ∧ first = sql ∨ 1 < k ∧ below.find? name = some sql := by
  have hwaiting : waiting own below name = first :: (below.find? name).toList := by
    simp [waiting, hown]
  rw [hwaiting]
  cases k with
  | zero => simp
  | succ k =>
    cases k with
    | zero => simp [eq_comm]
    | succ k => cases below.find? name <;> simp [eq_comm]

theorem mem_take_waiting_below {own below : Keyed String} {name sql : String}
    (hown : own.find? name = none) (k : Nat) :
    sql ∈ (waiting own below name).take k ↔ 0 < k ∧ below.find? name = some sql := by
  have hwaiting : waiting own below name = (below.find? name).toList := by
    simp [waiting, hown]
  rw [hwaiting]
  cases k with
  | zero => simp
  | succ k => cases below.find? name <;> simp [eq_comm]

end Render

namespace Node

theorem aggregateScan_run_eq_ok {columns : List Column} {source : Node}
    {keys aggregates : List ComputedColumn} {settings : Settings} {s final : State} {sql : String}
    (h : (aggregateScan columns source keys aggregates).render.run settings s = .ok sql final) :
    ∃ texts mid text, (each ComputedColumn.render (aggregates ++ keys)).run settings s =
      .ok texts mid ∧ source.render.run settings mid = .ok text final := by
  obtain ⟨totals, t, groups, u, text, htotals, hgroups, hsource, -⟩ :=
    aggregateScan_render_run_eq_ok.1 h
  exact ⟨_, u, text, each_append_run_eq_ok.2 ⟨totals, t, groups, htotals, hgroups, rfl⟩, hsource⟩

/-- What a projection that has SQL keeps. A computed column of its own is selected if and only if
its name is listed and the columns computed after it leave nothing else under that name, or if the
name is listed twice and the same is computed below. If it computes none itself, a column of the
aggregate scan below it is selected if and only if its name is listed and neither the columns after
it nor the input of that scan leave anything else under that name. -/
theorem projectScan_keeps_last {columns : List Column} {computed : List ComputedColumn}
    {input : Node} {settings : Settings} {s final : State} {sql : String}
    (h : (projectScan columns computed input).render.run settings s = .ok sql final) :
    ∃ texts mid text last items,
      (ComputedColumn.renderAll computed).run settings { s with pending := ∅ } = .ok texts mid ∧
      input.render.run settings { mid with pending := ∅ } = .ok text last ∧
      sql = "SELECT " ++ commas items ++ (if text = "" then "" else " " ++ text) ∧
      (∀ front c back, computed = front ++ c :: back →
        ∃ e t u, ComputedColumn.Between settings { s with pending := ∅ } front c back e t u ∧
          (c.entry e ∈ items ↔
            0 < listings columns c.column.name ∧
              (u.pending.find? c.column.name).getD (c.entry e) = c.entry e ∨
            1 < listings columns c.column.name ∧
              last.pending.find? c.column.name = some (c.entry e)) ∧
          (u.pending.find? c.column.name = none ↔
            ¬ ComputedColumn.Leave settings { t with pending := ∅ } back c.column.name)) ∧
      ∀ grouped source keys aggregates, computed = [] →
        input = aggregateScan grouped source keys aggregates →
        ∀ front c back, aggregates ++ keys = front ++ c :: back →
          ∃ e t u rest v,
            ComputedColumn.Between settings { mid with pending := ∅ } front c back e t u ∧
            source.render.run settings u = .ok rest v ∧
            (c.entry e ∈ items ↔
              0 < listings columns c.column.name ∧
                (v.pending.find? c.column.name).getD (c.entry e) = c.entry e) ∧
            (v.pending.find? c.column.name = none ↔
              ¬ ComputedColumn.Leave settings { t with pending := ∅ } back c.column.name ∧
              ¬ source.Leaves settings (u.naming settings source) [] c.column.name) := by
  obtain ⟨texts, mid, text, last, hcomputed, hinput, rfl, -⟩ := projectScan_run_eq_ok.1 h
  have hselects := selects_selectItems (labelled_computed hcomputed)
    ((input.render_closed keepsLabels_closed).labelled hinput) columns
  refine ⟨texts, mid, text, last, _, hcomputed, hinput, selectText_eq _ _, ?_, ?_⟩
  · rintro front c back rfl
    rw [ComputedColumn.renderAll_eq] at hcomputed
    obtain ⟨e, t, u, _, hbetween, hu, hown⟩ :=
      ComputedColumn.run_cut (Isolated.closed.pure ()) hcomputed rfl
    obtain ⟨-, rfl⟩ := pure_run_eq_ok.1 hu
    refine ⟨e, t, u, hbetween, ?_, hbetween.find?_eq_none _⟩
    rw [hselects.mem_iff, mem_take_waiting hown]
  · rintro grouped source keys aggregates rfl rfl front c back hentries
    obtain ⟨-, rfl⟩ := pure_run_eq_ok.1 hcomputed
    obtain ⟨_, v, _, hcolumns, hsource⟩ := aggregateScan_run_eq_ok hinput
    rw [hentries] at hcolumns
    obtain ⟨e, t, u, w, hbetween, hu, hbelow⟩ :=
      ComputedColumn.run_cut (source.render_closed Isolated.closed) hcolumns hsource
    refine ⟨e, t, u, _, w, hbetween, hu, ?_, ?_⟩
    · rw [hselects.mem_iff, mem_take_waiting_below rfl, hbelow, Option.some.injEq]
    · rw [find?_pending_eq_none hu, hbetween.find?_eq_none]

def oneAsA : ComputedColumn :=
  ⟨⟨"a", "", .scalar .int64⟩, .literal (.int 1) (.scalar .int64)⟩

def twoAsA : ComputedColumn :=
  ⟨⟨"a", "", .scalar .int64⟩, .literal (.int 2) (.scalar .int64)⟩

def alikeColumns : Node := .projectScan [oneAsA.column, twoAsA.column] [oneAsA, twoAsA] .singleRow

theorem alikeColumns_loses_one :
    ∃ final, alikeColumns.render.run {} oneTable =
        .ok ("SELECT " ++ commas [twoAsA.entry "2", quoteName "a"]) final ∧
      listings [oneAsA.column, twoAsA.column] "a" = [oneAsA, twoAsA].length ∧
      ∃ mid, (ComputedColumn.renderAll [oneAsA, twoAsA]).run {} oneTable = .ok ["1", "2"] mid ∧
        oneAsA.entry "1" ∉ [twoAsA.entry "2", quoteName "a"] :=
  ⟨_, rfl, rfl, _, rfl, by decide⟩

theorem alikeColumns_keeps_two :
    ∃ sql final items e, alikeColumns.render.run {} oneTable = .ok sql final ∧
      sql = "SELECT 2 AS `a`,`a`" ∧
      (∃ text, sql = "SELECT " ++ commas items ++ (if text = "" then "" else " " ++ text)) ∧
      twoAsA.entry e ∈ items := by
  have hrun : alikeColumns.render.run {} oneTable = .ok "SELECT 2 AS `a`,`a`" _ := rfl
  obtain ⟨_, _, text, _, items, -, -, hsql, hown, -⟩ :=
    projectScan_keeps_last hrun
  obtain ⟨e, t, u, -, hkept, hnone⟩ := hown [oneAsA] twoAsA [] rfl
  refine ⟨_, _, items, e, hrun, rfl, ⟨text, hsql⟩, hkept.2 (.inl ⟨Nat.zero_lt_two, ?_⟩)⟩
  rw [hnone.2 id]
  rfl

end Node
end ResolvedSql
