import ResolvedSql.Proofs.Occurrences
set_option autoImplicit false

namespace ResolvedSql

theorem SetOperation.code_bounds (op : SetOperation) : 0 ≤ op.code.toInt ∧ op.code.toInt ≤ 5 := by
  cases op <;> decide

theorem FrameUnit.code_bounds (u : FrameUnit) : 0 ≤ u.code.toInt ∧ u.code.toInt ≤ 1 := by
  cases u <;> decide

theorem BoundaryKind.code_bounds (k : BoundaryKind) : 0 ≤ k.code.toInt ∧ k.code.toInt ≤ 4 := by
  cases k <;> decide

theorem BoundaryKind.hasOffset_iff (k : BoundaryKind) :
    k.hasOffset = true ↔ k.code.toInt = 1 ∨ k.code.toInt = 3 := by
  cases k <;> decide

/-- A frame end of a known kind, with an offset where the kind asks for one. -/
structure Boundary.Supported (b : Boundary) : Prop where
  code : 0 ≤ b.code.toInt ∧ b.code.toInt ≤ 4
  offset : b.code.toInt = 1 ∨ b.code.toInt = 3 → b.offset ≠ none

structure Frame.Supported (f : Frame) : Prop where
  unit : 0 ≤ f.unit.toInt ∧ f.unit.toInt ≤ 1
  first : ∀ b ∈ f.first, b.Supported
  last : ∀ b ∈ f.last, b.Supported

/-- What is asked of a node itself, whatever its parts are. The frame of a call that is inlined may
be anything. -/
def Node.Supported (inlined : Bool) : Node → Prop
  | .unsupported _ => False
  | .analyticCall _ _ _ _ frame => inlined = false → ∀ f ∈ frame, f.Supported
  | .arrayScan input _ _ => input = none
  | .setOperation code _ => 0 ≤ code.toInt ∧ code.toInt ≤ 5
  | .withScan _ _ recursive => recursive = false
  | .insertStmt _ columns rows query =>
    (rows = [] ↔ query ≠ none) ∧ ∀ row ∈ rows, row.length = columns.length
  | .updateStmt _ assignments _ => assignments ≠ []
  | _ => True

section
variable {settings : Settings} {ρ : Naming} {scope : Option AnalyticScope} {p : Position}

theorem Boundary.Rendered.supported {b : Boundary} (h : b.Rendered settings ρ scope p) :
    b.Supported := by
  obtain ⟨kind, hkind, hoffset⟩ := h
  have hcode := BoundaryKind.eq_code_of_ofCode hkind
  refine ⟨hcode ▸ kind.code_bounds, fun h => ?_⟩
  rw [hcode] at h
  obtain ⟨e, he, -⟩ := hoffset (kind.hasOffset_iff.2 h)
  simp [he]

theorem Node.supported_of_succeeds {n : Node} (h : (n.meaning settings ρ scope p).Succeeds) :
    n.Supported (ρ.inlines settings p) := by
  cases n with
  | unsupported kind =>
    rw [Node.meaning] at h
    exact Meaning.not_succeeds_fail _ h
  | analyticCall function arguments type distinct frame =>
    rintro hi f rfl
    obtain ⟨⟨unit, hunit⟩, hfirst, hlast⟩ := Node.frame_rendered h hi
    have hcode := FrameUnit.eq_code_of_ofCode hunit
    exact ⟨hcode ▸ unit.code_bounds, fun b hb => (hfirst b hb).supported,
      fun b hb => (hlast b hb).supported⟩
  | arrayScan input array element =>
    cases input with
    | none => rfl
    | some input =>
      rw [Node.meaning] at h
      exact (Meaning.not_succeeds_fail _ h).elim
  | setOperation code branches =>
    rw [Node.meaning] at h
    obtain ⟨op, hop, -⟩ := Meaning.succeeds_bind.1 h
    rw [SetOperation.eq_code_of_ofCode hop]
    exact op.code_bounds
  | withScan entries query recursive =>
    cases recursive with
    | false => rfl
    | true =>
      rw [Node.meaning, if_pos rfl] at h
      exact (Meaning.not_succeeds_fail _ h).elim
  | insertStmt table columns rows query =>
    rcases Node.source_rendered h with ⟨e, rfl, rfl, -⟩ | ⟨rfl, hrows, hwidth⟩
    · simp [Node.Supported]
    · refine ⟨by simp [hrows], fun row hrow => ?_⟩
      obtain ⟨i, hi⟩ := List.mem_iff_getElem?.1 hrow
      exact (hwidth i row hi).1
  | updateStmt table assignments condition =>
    rw [Node.meaning.eq_def] at h
    obtain ⟨_, h⟩ := h.rest
    split at h
    · exact (Meaning.not_succeeds_fail _ h).elim
    · rename_i hassignments
      simpa [Node.Supported] using hassignments
  | _ => trivial

end

namespace Statement

/-- If a statement has SQL, each node of it is left out or supported. -/
theorem toSql_supported (s : Statement) (settings : Settings) (sql : String)
    (h : (s.toSql settings).result = .ok sql) (m : Node) (q : Position)
    (hm : s.root.Has [] m q) :
    s.root.LeftOut (s.inlines settings) [] q ∨ m.Supported (s.inlines settings q) := by
  rcases Statement.rendered h hm with hleft | ⟨inner, hinner, -⟩
  · exact .inl hleft
  · exact .inr (Node.supported_of_succeeds hinner)

def insertTotal : Statement where
  declaredPath := []
  namePaths := [["t"], ["g"]]
  root := .insertStmt "t" [⟨"x", "t", .scalar .int64⟩]
    [[.aggregateCall "g" [.columnRef ⟨"y", "u", .scalar .int64⟩] (.scalar .int64) false []
      (some (.unsupported .cast))]] none

def withTotal : Settings := { registry := (∅ : Registry).insert "g" ⟨"max(?)"⟩ }

theorem insertTotal_supported :
    (insertTotal.toSql withTotal).result = .ok "INSERT INTO `t` (`x`) VALUES (( max(`y`) ))" ∧
      insertTotal.root.Has [] (.unsupported .cast) [1, 0, 0, 0] ∧
      insertTotal.root.LeftOut (insertTotal.inlines withTotal) [] [1, 0, 0, 0] ∧
      insertTotal.root.Supported false := by
  have hsql : (insertTotal.toSql withTotal).result =
      .ok "INSERT INTO `t` (`x`) VALUES (( max(`y`) ))" := by with_unfolding_all rfl
  have hcall : insertTotal.root.Has [] (.aggregateCall "g" [.columnRef ⟨"y", "u", .scalar .int64⟩]
      (.scalar .int64) false [] (some (.unsupported .cast))) [0, 0, 0] :=
    .part (.inl ⟨0, _, rfl, 0, rfl, rfl⟩) (.self _ _)
  refine ⟨hsql, .part (.inl ⟨0, _, rfl, 0, rfl, rfl⟩) (.part (.inr ⟨rfl, rfl⟩) (.self _ _)),
    ⟨_, _, 1, hcall, by decide +kernel, List.suffix_rfl⟩, ?_⟩
  rcases toSql_supported insertTotal _ _ hsql _ _ (.self _ []) with ⟨m, r, k, -, -, hk⟩ | hroot
  · simp at hk
  · exact hroot

end Statement
end ResolvedSql
