import ResolvedSql.Proofs.Run
import ResolvedSql.Proofs.SharedNames
/-!
Which calls share an entry point. An entry point is put together from the prefix, the name of a
function and the family of its result, with underscores between them. No family has an underscore,
so the last underscore tells the family from the rest, and what is left after the prefix is the
name.
-/
set_option autoImplicit false

namespace ResolvedSql

theorem SqlType.underscore_not_mem_family (type : SqlType) : '_' ∉ type.family.toList := by
  cases type with
  | scalar type => cases type <;> decide
  | array => exact (by decide : '_' ∉ "array".toList)
  | struct => exact (by decide : '_' ∉ "struct".toList)

/-- What stands after the last underscore is known from the text. -/
theorem NamePath.append_segment_inj {a b s t : String} (hs : '_' ∉ s.toList) (ht : '_' ∉ t.toList) :
    a ++ "_" ++ s = b ++ "_" ++ t ↔ a = b ∧ s = t := by
  constructor
  · intro h
    have hpieces := congrArg segmentPieces h
    rw [segmentPieces_append, segmentPieces_append, segmentPieces_of_not_mem hs,
      segmentPieces_of_not_mem ht, List.append_singleton_inj] at hpieces
    refine ⟨?_, hpieces.2⟩
    rw [← flatten_segmentPieces a, hpieces.1, flatten_segmentPieces]
  · rintro ⟨rfl, rfl⟩
    rfl

/-- The function of a prefix that has this name and this result. -/
def entryPoint (lead name : String) (type : SqlType) : String :=
  lead ++ "_" ++ name ++ "_" ++ type.family

theorem entryPoint_inj {lead m n : String} {s t : SqlType} :
    entryPoint lead m s = entryPoint lead n t ↔ s.family = t.family ∧ m = n := by
  have hlead : lead ++ "_" ++ m = lead ++ "_" ++ n ↔ m = n := by
    rw [String.append_right_inj]
  unfold entryPoint
  rw [NamePath.append_segment_inj s.underscore_not_mem_family t.underscore_not_mem_family, hlead,
    and_comm]

namespace Catalog

def qualified (c : Catalog) (name : String) : String :=
  match c with
  | .window => "window_" ++ name
  | _ => name

theorem mangle_eq_entryPoint (c : Catalog) (lead name : String) (type : SqlType) :
    c.mangle lead name type = entryPoint lead (c.qualified name) type := by
  cases c with
  | window =>
    have hstem : lead ++ "_window" ++ "_" ++ name = lead ++ "_" ++ ("window_" ++ name) :=
      String.toList_inj.1 (by simp)
    simp only [mangle, stem, entryPoint, qualified, hstem]
  | scalar | aggregate => rfl

theorem mangle_inj {lead m n : String} {c d : Catalog} {s t : SqlType} :
    c.mangle lead m s = d.mangle lead n t ↔
      s.family = t.family ∧ c.qualified m = d.qualified n := by
  rw [mangle_eq_entryPoint, mangle_eq_entryPoint, entryPoint_inj]

theorem not_startsWith_window : ∀ c ∈ [scalar, aggregate], ∀ name ∈ c.names,
    Text.startsWith "window_" name = false := by decide +kernel

theorem scalar_disjoint_aggregate : ∀ name ∈ scalar.names, name ∉ aggregate.names := by
  decide +kernel

theorem qualified_window_ne {c : Catalog} {m n : String} (hc : c ∈ [scalar, aggregate])
    (hm : m ∈ c.names) : m ≠ "window_" ++ n := by
  rintro rfl
  have hstart := not_startsWith_window c hc _ hm
  simp [Text.startsWith] at hstart

theorem qualified_inj {c d : Catalog} {m n : String} (hm : m ∈ c.names) (hn : n ∈ d.names)
    (h : c.qualified m = d.qualified n) (lead : String) : m = n ∧ c.stem lead = d.stem lead := by
  cases c <;> cases d <;> simp only [qualified] at h
  case window.window => exact ⟨(String.append_right_inj _).1 h, rfl⟩
  case scalar.window | aggregate.window => exact (qualified_window_ne (by simp) hm h).elim
  case window.scalar | window.aggregate => exact (qualified_window_ne (by simp) hn h.symm).elim
  all_goals exact ⟨h, rfl⟩

/-- Functions that carry an option of another call or take a value apart. -/
def helpers : List String :=
  ["distinct", "order_by", "limit", "decode_array", "get_struct_field", "window_partition",
    "window_order_by", "window_frame_unit", "window_boundary_start", "window_boundary_end",
    "window_rowid"]

theorem qualified_not_helper : ∀ c ∈ [scalar, aggregate, window], ∀ name ∈ c.names,
    c.qualified name ∉ helpers := by decide +kernel

end Catalog

namespace Render

def IsHelperCall (lead sql : String) : Prop :=
  ∃ name ∈ Catalog.helpers, ∃ type inside, sql = entryPoint lead name type ++ "(" ++ inside ++ ")"

theorem optionCall_isHelperCall (lead : String) {name : String} (h : name ∈ Catalog.helpers)
    (args : List String) : IsHelperCall lead (optionCall lead name args) := by
  refine ⟨name, h, .scalar .string, Text.separated ", " args, ?_⟩
  have hfamily : (SqlType.scalar .string).family = "string" := rfl
  apply String.toList_inj.1
  simp [optionCall, entryPoint, hfamily]

variable {settings : Settings}

theorem aggregateArguments_areHelperCalls (lead : String) (distinct : Bool)
    (orderBy : List OrderItem) :
    ∀ sql ∈ aggregateArguments lead distinct orderBy, IsHelperCall lead sql := by
  intro sql hsql
  rcases List.mem_append.1 hsql with hsql | hsql
  · obtain ⟨item, -, rfl⟩ := List.mem_map.1 hsql
    exact optionCall_isHelperCall lead (by decide) _
  · split at hsql
    · rw [List.mem_singleton] at hsql
      exact hsql ▸ optionCall_isHelperCall lead (by decide) _
    · cases hsql

theorem windowArguments_areHelperCalls (lead : String) (distinct : Bool) (scope : AnalyticScope) :
    ∀ sql ∈ windowArguments lead distinct scope, IsHelperCall lead sql := by
  intro sql hsql
  rcases List.mem_append.1 hsql with hsql | hsql
  · rcases List.mem_append.1 hsql with hsql | hsql
    · split at hsql
      · rw [List.mem_singleton] at hsql
        exact hsql ▸ optionCall_isHelperCall lead (by decide) _
      · cases hsql
    · obtain ⟨column, -, rfl⟩ := List.mem_map.1 hsql
      exact optionCall_isHelperCall lead (by decide) _
  · obtain ⟨item, -, rfl⟩ := List.mem_map.1 hsql
    exact optionCall_isHelperCall lead (by decide) _

theorem functionPrefix_gives : Gives settings functionPrefix (· = settings.config.functionPrefix) :=
  .bind .read fun _ h => .pure (by rw [h])

theorem limit_isHelperCall (limit : Option Node) :
    Gives settings (Node.renderLimit limit)
      fun sqls => ∀ sql ∈ sqls, IsHelperCall settings.config.functionPrefix sql := by
  cases limit with
  | none => exact .pure (by simp)
  | some n =>
    rw [Node.renderLimit]
    refine .bind_last fun sql => .bind functionPrefix_gives ?_
    rintro lead rfl
    exact .pure (by simpa using optionCall_isHelperCall _ (by decide) _)

theorem boundary_isHelperCall {edge : String} (hedge : edge ∈ ["start", "end"]) (b : Boundary) :
    Gives settings (b.render edge) (IsHelperCall settings.config.functionPrefix) := by
  have hname : "window_boundary_" ++ edge ∈ Catalog.helpers := by
    have hall : ∀ e ∈ ["start", "end"], "window_boundary_" ++ e ∈ Catalog.helpers := by
      decide +kernel
    exact hall edge hedge
  cases b with
  | mk code offset =>
    rw [Boundary.render]
    refine .bind_last fun kind => .bind functionPrefix_gives ?_
    rintro lead rfl
    simp only
    split
    · refine .bind_last fun sql => ?_
      split
      · exact .bind_last fun _ => .pure (optionCall_isHelperCall _ hname _)
      · exact .pure (optionCall_isHelperCall _ hname _)
    · exact .pure (optionCall_isHelperCall _ hname _)

theorem boundaryOption_isHelperCall {edge : String} (hedge : edge ∈ ["start", "end"])
    (b : Option Boundary) :
    Gives settings (Boundary.renderOption edge b)
      fun sqls => ∀ sql ∈ sqls, IsHelperCall settings.config.functionPrefix sql := by
  cases b with
  | none => exact .pure (by simp)
  | some b =>
    rw [Boundary.renderOption]
    exact .bind (boundary_isHelperCall hedge b) fun sql hsql => .pure (by simpa using hsql)

theorem frame_isHelperCall (frame : Option Frame) :
    Gives settings (Frame.renderOption frame)
      fun sqls => ∀ sql ∈ sqls, IsHelperCall settings.config.functionPrefix sql := by
  cases frame with
  | none => exact .pure (by simp)
  | some frame =>
    cases frame with
    | mk unit first last =>
      rw [Frame.renderOption, Frame.render]
      refine .bind_last fun unit => .bind functionPrefix_gives ?_
      rintro lead rfl
      refine .bind (boundaryOption_isHelperCall (by simp) first) fun starts hstarts => ?_
      refine .bind (boundaryOption_isHelperCall (by simp) last) fun ends hends => .pure ?_
      intro sql hsql
      rcases List.mem_cons.1 hsql with rfl | hsql
      · exact optionCall_isHelperCall _ (by decide) _
      · exact (List.mem_append.1 hsql).elim (hstarts sql) (hends sql)

theorem structField_isHelperCall (operand : Node) (index : UInt64) (type : SqlType) :
    Gives settings (Node.structField operand index type).render
      (IsHelperCall settings.config.functionPrefix) := by
  rw [Node.render]
  refine .bind_last fun sql => .bind functionPrefix_gives ?_
  rintro lead rfl
  refine .pure ⟨"get_struct_field", by decide, type, sql ++ ", " ++ toString index.toNat, ?_⟩
  apply String.toList_inj.1
  simp [entryPoint]

/-- What the translation calls on its own: the options of aggregate and window calls, arrays that
are taken apart and fields that are read are passed through helpers. -/
structure CallsHelpers (settings : Settings) (lead : String) : Prop where
  aggregate : ∀ distinct orderBy, ∀ sql ∈ aggregateArguments lead distinct orderBy,
    IsHelperCall lead sql
  limit : ∀ limit, Gives settings (Node.renderLimit limit) fun sqls =>
    ∀ sql ∈ sqls, IsHelperCall lead sql
  window : ∀ distinct scope, ∀ sql ∈ windowArguments lead distinct scope, IsHelperCall lead sql
  frame : ∀ frame, Gives settings (Frame.renderOption frame) fun sqls =>
    ∀ sql ∈ sqls, IsHelperCall lead sql
  rowId : ∀ column, IsHelperCall lead (optionCall lead "window_rowid" [column])
  array : ∀ element array, ∃ call, IsHelperCall lead call ∧ arrayText lead element array =
    "FROM ( SELECT json_each.value AS " ++ quoteName element ++ " FROM json_each(" ++ call ++ ") )"
  field : ∀ operand index type, Gives settings (Node.structField operand index type).render
    (IsHelperCall lead)

theorem callsHelpers (settings : Settings) :
    CallsHelpers settings settings.config.functionPrefix where
  aggregate := aggregateArguments_areHelperCalls _
  limit := limit_isHelperCall
  window := windowArguments_areHelperCalls _
  frame := frame_isHelperCall
  rowId column := optionCall_isHelperCall _ (by decide) [column]
  array element array := ⟨_, optionCall_isHelperCall _ (by decide) [array], rfl⟩
  field := structField_isHelperCall

end Render

namespace Catalog

/-- Entry points of one prefix are the same exactly if the families are and the names are, where
those of the window catalog count as longer by a word. So builtins share one only under one name
and one stem, no name is in both of the catalogs that have the same stem, and no builtin shares one
with a helper, which is all that the translation calls on its own. -/
theorem mangle_shares_entryPoint (lead : String) :
    (∀ (c d : Catalog) (m n : String) (s t : SqlType), c.mangle lead m s = d.mangle lead n t ↔
      s.family = t.family ∧ c.qualified m = d.qualified n) ∧
    (∀ (c d : Catalog) (m n : String) (s t : SqlType), m ∈ c.names → n ∈ d.names →
      (c.mangle lead m s = d.mangle lead n t ↔
        m = n ∧ c.stem lead = d.stem lead ∧ s.family = t.family)) ∧
    (∀ name ∈ scalar.names, name ∉ aggregate.names) ∧
    (∀ (c : Catalog) (m : String) (s t : SqlType), m ∈ c.names → ∀ helper ∈ helpers,
      c.mangle lead m s ≠ entryPoint lead helper t) ∧
    ∀ settings : Settings, settings.config.functionPrefix = lead →
      Render.CallsHelpers settings lead := by
  refine ⟨fun c d m n s t => mangle_inj, fun c d m n s t hm hn => ⟨fun h => ?_, ?_⟩,
    scalar_disjoint_aggregate, fun c m s t hm helper hhelper h => ?_,
    fun settings hlead => hlead ▸ Render.callsHelpers settings⟩
  · obtain ⟨hfamily, hname⟩ := mangle_inj.1 h
    obtain ⟨rfl, hstem⟩ := qualified_inj hm hn hname lead
    exact ⟨rfl, hstem, hfamily⟩
  · rintro ⟨rfl, hstem, hfamily⟩
    rw [mangle, mangle, hstem, hfamily]
  · rw [mangle_eq_entryPoint, entryPoint_inj] at h
    exact qualified_not_helper c (by cases c <;> simp) m hm (h.2 ▸ hhelper)

/-- A count of rows and a count over a window stay apart, also under a prefix that ends like the
stem of window calls, while arrays of any elements are one result. -/
theorem count_shares_entryPoint :
    aggregate.mangle "f_window" "count" (.scalar .int64) ≠
        window.mangle "f_window" "count" (.scalar .int64) ∧
      window.mangle "f_window" "array_agg" (.array (.scalar .int64)) =
        window.mangle "f_window" "array_agg" (.array (.scalar .string)) ∧
      scalar.mangle "f_window" "array_concat" (.array (.scalar .string)) ≠
        entryPoint "f_window" "decode_array" (.scalar .string) := by
  obtain ⟨-, hshare, -, hhelper, -⟩ := mangle_shares_entryPoint "f_window"
  refine ⟨fun h => ?_, ?_, ?_⟩
  · have hstem := ((hshare _ _ _ _ _ _ (by decide +kernel) (by decide +kernel)).1 h).2.1
    exact absurd hstem (by decide +kernel)
  · exact (hshare _ _ _ _ _ _ (by decide +kernel) (by decide +kernel)).2 ⟨rfl, rfl, rfl⟩
  · exact hhelper _ _ _ _ (by decide +kernel) _ (by decide +kernel)

end Catalog
end ResolvedSql
