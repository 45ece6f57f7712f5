import ResolvedSql.Proofs.Occurrences
import ResolvedSql.Proofs.Closure
set_option autoImplicit false

namespace ResolvedSql

open Render

/-- `t` is `s` with columns added at the end. -/
structure AnalyticScope.Grows (s t : AnalyticScope) : Prop where
  table : t.table = s.table
  partition : t.partition = s.partition
  order : t.order = s.order
  columns : s.columns <+: t.columns

namespace State

theorem Leads.scope_grows {s t : State} (h : s.Leads false t) :
    Option.Rel AnalyticScope.Grows s.analytic t.analytic := by
  have refl (o : Option AnalyticScope) : Option.Rel AnalyticScope.Grows o o := by
    cases o with
    | none => exact .none
    | some scope => exact .some ⟨rfl, rfl, rfl, List.prefix_rfl⟩
  generalize hg : false = grouped at h
  induction h with
  | refl _ s => exact refl _
  | @trans _ s t u _ _ ih ih' =>
    have hst := ih hg
    have htu := ih' hg
    generalize s.analytic = a at hst
    generalize t.analytic = b at hst htu
    generalize u.analytic = c at htu
    cases hst with
    | none => exact htu
    | some h =>
      cases htu with
      | some h' =>
        exact .some ⟨h'.table.trans h.table, h'.partition.trans h.partition,
          h'.order.trans h.order, h.columns.trans h'.columns⟩
  | reported | named | computed => exact refl _
  | columnScope _ ih => exact ih hg
  | noted _ s scope sql h =>
    rw [h]
    exact .some ⟨rfl, rfl, rfl, List.prefix_append _ _⟩
  | opened => cases hg
  | analyticScope => exact refl _

end State

theorem Node.analyticCall_scope {settings : Settings} {ρ : Naming} {scope : Option AnalyticScope}
    {p : Position} {function : String} {arguments : List Node} {type : SqlType} {distinct : Bool}
    {frame : Option Frame}
    (h : ((Node.analyticCall function arguments type distinct frame).meaning settings ρ scope
      p).Succeeds) : scope ≠ none := by
  rintro rfl
  rw [Node.meaning.eq_def] at h
  exact Meaning.not_succeeds_fail _ h

namespace Statement

/-- Rendering a node, whether it succeeds or fails, leaves no scope where there was none, and else
the scope around with columns added. If a statement has SQL, each window call in it is left out or
inside a group of an analytic scan. -/
theorem window_calls_in_groups (settings : Settings) :
    (∀ (n : Node) (s : State),
      Option.Rel AnalyticScope.Grows s.analytic (n.render.after settings s).analytic) ∧
    ∀ (s : Statement) (sql : String), (s.toSql settings).result = .ok sql →
      ∀ (q : Position) (function : String) (arguments : List Node) (type : SqlType)
        (distinct : Bool) (frame : Option Frame),
        s.root.Has [] (.analyticCall function arguments type distinct frame) q →
        s.root.LeftOut (s.inlines settings) [] q ∨
          s.root.InGroup [] (.analyticCall function arguments type distinct frame) q := by
  refine ⟨fun n s => (n.render_leads settings s).scope_grows, ?_⟩
  intro s sql hsql q function arguments type distinct frame hcall
  rcases Statement.rendered hsql hcall with hleft | ⟨inner, hinner, hnone | hgroup⟩
  · exact .inl hleft
  · exact (Node.analyticCall_scope hinner hnone).elim
  · exact .inr hgroup

def totalOfRanks : Statement where
  declaredPath := ["p"]
  namePaths := [["t"]]
  root := .analyticScan [⟨"total", "", .scalar .int64⟩] (.tableScan "t" [])
    [⟨some [⟨"x", "t", .scalar .int64⟩], none, [⟨⟨"total", "", .scalar .int64⟩,
      .analyticCall "sum" [.subquery .scalar
        (.filterScan .singleRow (.analyticCall "rank" [] (.scalar .int64) false none))
        (.scalar .int64)] (.scalar .int64) false none⟩]⟩]

theorem totalOfRanks_calls_in_groups :
    (∃ sql, (totalOfRanks.toSql {}).result = .ok sql) ∧
      totalOfRanks.root.Has [] (.analyticCall "rank" [] (.scalar .int64) false none)
        [1, 0, 0, 0, 0, 0, 1] ∧
      (totalOfRanks.root.LeftOut (totalOfRanks.inlines {}) [] [1, 0, 0, 0, 0, 0, 1] ∨
        totalOfRanks.root.InGroup [] (.analyticCall "rank" [] (.scalar .int64) false none)
          [1, 0, 0, 0, 0, 0, 1]) := by
  have hsql : (totalOfRanks.toSql {}).result = .ok _ := rfl
  have hrank : totalOfRanks.root.Has [] (.analyticCall "rank" [] (.scalar .int64) false none)
      [1, 0, 0, 0, 0, 0, 1] :=
    .part (.inr ⟨0, _, rfl, 0, rfl, rfl⟩) <| .part (.inl ⟨0, rfl, rfl⟩) <|
      .part ⟨rfl, rfl⟩ <| .part (.inr ⟨rfl, rfl⟩) <| .self _ _
  exact ⟨⟨_, hsql⟩, hrank, (window_calls_in_groups {}).2 _ _ hsql _ _ _ _ _ _ hrank⟩

end Statement
end ResolvedSql
