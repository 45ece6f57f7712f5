import ResolvedSql.Proofs.Closure
import ResolvedSql.Statement
/-!
Which name paths matter. A rendering takes the paths one after the other and never moves past the
last. The SQL depends on the paths that were taken and on no other, and if some of those are
missing, the first one that is missing is the error.
-/
set_option autoImplicit false

namespace ResolvedSql

open Render

/-- `t` comes after `s` in a rendering: it has the same paths, the paths taken in between were
reported in their order, and none was taken that is not there. -/
structure State.Onward (s t : State) : Prop where
  declared : t.cursor.declared = s.cursor.declared
  paths : t.cursor.paths = s.cursor.paths
  index_le : s.cursor.index ≤ t.cursor.index
  reported : t.log.filterMap Event.path? = s.log.filterMap Event.path? ++
    List.range' s.cursor.index (t.cursor.index - s.cursor.index)

namespace State

theorem Onward.refl (s : State) : s.Onward s := ⟨rfl, rfl, Nat.le_refl _, by simp⟩

theorem Onward.trans {s t u : State} (h : s.Onward t) (h' : t.Onward u) : s.Onward u where
  declared := h'.declared.trans h.declared
  paths := h'.paths.trans h.paths
  index_le := Nat.le_trans h.index_le h'.index_le
  reported := by
    have hle := h.index_le
    have hle' := h'.index_le
    have hsum : u.cursor.index - s.cursor.index =
        (t.cursor.index - s.cursor.index) + (u.cursor.index - t.cursor.index) := by omega
    have hmid : t.cursor.index = s.cursor.index + (t.cursor.index - s.cursor.index) := by omega
    rw [h'.reported, h.reported, hsum, List.append_assoc, ← List.range'_append_1, ← hmid]

theorem Onward.index_le_length {s t : State} (h : s.Onward t) :
    t.cursor.index ≤ s.cursor.paths.length :=
  h.paths ▸ t.cursor.index_le

theorem Onward.of_next {s : State} {name : String} {cursor : Cursor}
    (h : s.cursor.next? = some (name, cursor)) :
    s.Onward { s with cursor := cursor, log := s.log ++ [.nameResolved s.cursor.index name] } := by
  by_cases hlt : s.cursor.index < s.cursor.paths.length
  · rw [Cursor.next?_of_lt hlt] at h
    cases h
    exact ⟨rfl, rfl, Nat.le_succ _, by simp [Event.path?]⟩
  · rw [Cursor.next?_of_le (Nat.le_of_not_lt hlt)] at h
    cases h

theorem Leads.onward {grouped : Bool} {s t : State} (h : s.Leads grouped t) : s.Onward t := by
  induction h with
  | refl _ s => exact .refl s
  | trans _ _ ih ih' => exact ih.trans ih'
  | reported _ s event h => exact ⟨rfl, rfl, Nat.le_refl _, by simp [h]⟩
  | named _ s name cursor h => exact .of_next h
  | computed _ s name sql => exact ⟨rfl, rfl, Nat.le_refl _, by simp⟩
  | columnScope _ ih => exact ⟨ih.declared, ih.paths, ih.index_le, ih.reported⟩
  | noted _ s scope sql h => exact ⟨rfl, rfl, Nat.le_refl _, by simp⟩
  | opened s scope group h => exact ⟨rfl, rfl, Nat.le_refl _, by simp⟩
  | analyticScope _ _ ih => exact ⟨ih.declared, ih.paths, ih.index_le, ih.reported⟩

end State

structure Cursor.Cut (k : Nat) (c d : Cursor) : Prop where
  declared : d.declared = c.declared
  paths : d.paths = c.paths.take k
  index : d.index = c.index

/-- `t` is `s` with only the first `k` paths, and possibly another log. -/
structure State.Cut (k : Nat) (s t : State) : Prop where
  cursor : s.cursor.Cut k t.cursor
  pending : t.pending = s.pending
  analytic : t.analytic = s.analytic

namespace Render

variable {α β : Type}

/-- The same result, or the same error, in states that differ by a cut. -/
inductive SameCourse (k : Nat) :
    EStateM.Result Error State α → EStateM.Result Error State α → Prop
  | ok (a : α) {s t : State} (h : s.Cut k t) : SameCourse k (.ok a s) (.ok a t)
  | error (e : Error) {s t : State} (h : s.Cut k t) : SameCourse k (.error e s) (.error e t)

/-- With only `k` paths the rendering takes the same course, or it fails for want of a path that
the full rendering takes. -/
def CutsShort (k : Nat) (x : Render α) : Prop :=
  ∀ (settings : Settings) (s t : State), s.Cut k t → s.cursor.index ≤ k →
    k ≤ s.cursor.paths.length →
    ((x.after settings s).cursor.index ≤ k ∧ SameCourse k (x settings s) (x settings t)) ∨
    (k < (x.after settings s).cursor.index ∧
      ∃ t', x settings t = .error (.namePathsExhausted k k) t')

namespace CutsShort

variable {k : Nat}

theorem of_same {x : Render α}
    (hx : ∀ settings s t, s.Cut k t → SameCourse k (x settings s) (x settings t))
    (hcursor : ∀ settings s, (x.after settings s).cursor = s.cursor) : x.CutsShort k := by
  intro settings s t hcut hindex hk
  rw [hcursor]
  exact .inl ⟨hindex, hx settings s t hcut⟩

theorem bind {x : Render α} {f : α → Render β} (hm : x.Moves true) (hx : x.CutsShort k)
    (hfm : ∀ a, (f a).Moves true) (hf : ∀ a, (f a).CutsShort k) : (x >>= f).CutsShort k := by
  intro settings s t hcut hindex hk
  have honward := (hm settings s).onward
  have hcourse := hx settings s t hcut hindex hk
  rw [after_bind, bind_apply, bind_apply]
  unfold after at hcourse honward
  generalize x settings s = r at hcourse honward ⊢
  generalize x settings t = r' at hcourse ⊢
  rcases hcourse with ⟨hle, hsame⟩ | ⟨hlt, t', rfl⟩
  · cases hsame with
    | error e hcut' => exact .inl ⟨hle, .error e hcut'⟩
    | ok a hcut' => exact hf a settings _ _ hcut' hle (honward.paths ▸ hk)
  · cases r with
    | error e s' => exact .inr ⟨hlt, t', rfl⟩
    | ok a s' =>
      -- what follows moves the full rendering further on
      have hrest := (hfm a settings s').onward
      exact .inr ⟨Nat.lt_of_lt_of_le hlt hrest.index_le, t', rfl⟩

theorem nextName : Render.nextName.CutsShort k := by
  intro settings s t hcut hindex hk
  have hlength : t.cursor.paths.length = k := by
    rw [hcut.cursor.paths, List.length_take_of_le hk]
  unfold after
  rw [nextName_apply, nextName_apply]
  by_cases hlt : s.cursor.index < k
  · have hs : s.cursor.index < s.cursor.paths.length := by omega
    have ht : t.cursor.index < t.cursor.paths.length := by
      rw [hlength, hcut.cursor.index]
      exact hlt
    have hpath : t.cursor.paths[t.cursor.index] = s.cursor.paths[s.cursor.index] := by
      simp [hcut.cursor.paths, hcut.cursor.index]
    rw [Cursor.next?_of_lt hs, Cursor.next?_of_lt ht]
    simp only [hpath, hcut.cursor.declared]
    refine .inl ⟨hlt, .ok _ ⟨⟨rfl, hcut.cursor.paths, ?_⟩, hcut.pending, hcut.analytic⟩⟩
    exact congrArg (· + 1) hcut.cursor.index
  · have hat : s.cursor.index = k := by omega
    have ht : t.cursor.paths.length ≤ t.cursor.index :=
      Nat.le_of_eq (by rw [hlength, hcut.cursor.index, hat])
    rw [Cursor.next?_of_le ht]
    simp only [hlength, hcut.cursor.index, hat]
    by_cases hend : k < s.cursor.paths.length
    · rw [Cursor.next?_of_lt (c := s.cursor) (hat.symm ▸ hend)]
      exact .inr ⟨by simp [hat], _, rfl⟩
    · -- nothing was cut off, and both have taken every path
      have hall : s.cursor.paths.length = k := by omega
      rw [Cursor.next?_of_le (c := s.cursor) (by omega), hall]
      exact .inl ⟨hindex, .error _ hcut⟩

theorem currentScope : Render.currentScope.CutsShort k := by
  refine of_same (fun settings s t hcut => ?_) fun settings s => ?_
  · rw [currentScope_apply, currentScope_apply, hcut.analytic]
    cases s.analytic with
    | none => exact .error _ hcut
    | some scope => exact .ok _ hcut
  · unfold after
    rw [currentScope_apply]
    cases s.analytic <;> rfl

theorem modifyScope (f : AnalyticScope → AnalyticScope) : (Render.modifyScope f).CutsShort k := by
  refine of_same (fun settings s t hcut => ?_) fun settings s => ?_
  · rw [modifyScope_apply, modifyScope_apply, hcut.analytic]
    cases s.analytic with
    | none => exact .error _ hcut
    | some scope => exact .ok _ ⟨hcut.cursor, hcut.pending, rfl⟩
  · rw [after_modifyScope]
    cases s.analytic <;> rfl

theorem scope {x : Render α} {y : Render β} (enter : State → State) (close : α → State → β)
    (leave : State → State → State)
    (hy : ∀ settings s, y settings s =
      match x settings (enter s) with
      | .ok a s' => .ok (close a s') (leave s s')
      | .error e s' => .error e (leave s s'))
    (henter : ∀ {s t}, s.Cut k t → (enter s).Cut k (enter t))
    (hclose : ∀ {a s t}, s.Cut k t → close a s = close a t)
    (hleave : ∀ {s t s' t'}, s.Cut k t → s'.Cut k t' → (leave s s').Cut k (leave t t'))
    (hcursor : ∀ s s', (enter s).cursor = s.cursor ∧ (leave s s').cursor = s'.cursor)
    (hx : x.CutsShort k) : y.CutsShort k := by
  intro settings s t hcut hindex hk
  rw [← (hcursor s s).1] at hindex hk
  have hafter : (y.after settings s).cursor = (x.after settings (enter s)).cursor := by
    unfold after
    rw [hy]
    cases x settings (enter s) <;> exact (hcursor _ _).2
  rw [hafter, hy settings s, hy settings t]
  rcases hx settings _ _ (henter hcut) hindex hk with ⟨hle, hsame⟩ | ⟨hlt, t', hrun⟩
  · generalize x settings (enter s) = r at hsame ⊢
    generalize x settings (enter t) = r' at hsame ⊢
    cases hsame with
    | error e hcut' => exact .inl ⟨hle, .error e (hleave hcut hcut')⟩
    | ok a hcut' =>
      simp only [hclose hcut']
      exact .inl ⟨hle, .ok _ (hleave hcut hcut')⟩
  · rw [hrun]
    exact .inr ⟨hlt, _, rfl⟩

theorem columnScope {x : Render α} (hx : x.CutsShort k) : (Render.columnScope x).CutsShort k :=
  scope (fun s => { s with pending := ∅ }) (fun a s' => (a, s'.pending))
    (fun s s' => { s' with pending := s.pending }) (columnScope_apply x)
    (fun h => ⟨h.cursor, rfl, h.analytic⟩) (fun h => by rw [h.pending])
    (fun h h' => ⟨h'.cursor, h.pending, h'.analytic⟩) (fun _ _ => ⟨rfl, rfl⟩) hx

theorem analyticScope {x : Render α} (hx : x.CutsShort k) :
    (Render.analyticScope x).CutsShort k :=
  scope (fun s => { s with analytic := some {} }) (fun a s' => (a, s'.analytic.getD {}))
    (fun s s' => { s' with analytic := s.analytic }) (analyticScope_apply x)
    (fun h => ⟨h.cursor, h.pending, rfl⟩) (fun h => by rw [h.analytic])
    (fun h h' => ⟨h'.cursor, h'.pending, h.analytic⟩) (fun _ _ => ⟨rfl, rfl⟩) hx

theorem closed (k : Nat) : Closed (fun _ x => x.Moves true ∧ x.CutsShort k)
    (fun _ x => x.Moves true ∧ x.CutsShort k) :=
  have moves := moves_closed true
  { pure a := ⟨moves.pure a, of_same (fun _ _ _ hcut => .ok a hcut) fun _ _ => rfl⟩
    bind hx hf := ⟨moves.bind hx.1 fun a => (hf a).1,
      bind hx.1 hx.2 (fun a => (hf a).1) fun a => (hf a).2⟩
    throw e := ⟨moves.throw e, of_same (fun _ _ _ hcut => .error e hcut) fun _ _ => rfl⟩
    read := ⟨moves.read, of_same (fun settings _ _ hcut => .ok settings hcut) fun _ _ => rfl⟩
    report event h := ⟨moves.report event h,
      of_same (fun _ _ _ hcut => .ok () ⟨hcut.cursor, hcut.pending, hcut.analytic⟩) fun _ _ => rfl⟩
    nextName := ⟨moves.nextName, nextName⟩
    addPending column sql := ⟨moves.addPending column sql,
      of_same (fun _ _ _ hcut => .ok () ⟨hcut.cursor,
        congrArg (Keyed.insert · column.name _) hcut.pending, hcut.analytic⟩) fun _ _ => rfl⟩
    columnScope hx := ⟨moves.columnScope hx.1, columnScope hx.2⟩
    currentScope := ⟨moves.currentScope, currentScope⟩
    addColumn sql := ⟨moves.addColumn sql, modifyScope _⟩
    grouped hx := hx
    groupBind hx hf := ⟨moves.bind hx.1 fun a => (hf a).1,
      bind hx.1 hx.2 (fun a => (hf a).1) fun a => (hf a).2⟩
    openGroup group := ⟨moves.openGroup group, modifyScope _⟩
    analyticScope hx := ⟨moves.analyticScope hx.1, analyticScope hx.2⟩ }

end CutsShort
end Render

namespace Statement

/-- How many paths rendering the statement takes before it ends, with SQL or with an error. -/
def consumed (s : Statement) (settings : Settings) : Nat :=
  match s.root.render.run settings s.initialState with
  | .ok _ final | .error _ final => final.cursor.consumed

theorem consumed_eq_index (s : Statement) (settings : Settings) :
    s.consumed settings = (s.root.render.after settings s.initialState).cursor.index := by
  unfold consumed after Render.run
  cases s.root.render settings s.initialState <;> rfl

theorem consumed_le (s : Statement) (settings : Settings) :
    s.consumed settings ≤ s.namePaths.length := by
  rw [consumed_eq_index]
  exact (s.root.render_leads settings s.initialState).onward.index_le_length

theorem toSql_log (s : Statement) (settings : Settings) :
    (s.toSql settings).log.filterMap Event.path? = List.range (s.consumed settings) := by
  have honward := (s.root.render_leads settings s.initialState).onward.reported
  rw [← consumed_eq_index, show s.initialState.cursor.index = 0 from rfl, Nat.sub_zero,
    ← List.range_eq_range', show s.initialState.log.filterMap Event.path? = [] from rfl,
    List.nil_append] at honward
  have hleftovers (final : State) : (leftovers final).filterMap Event.path? = [] := by
    unfold leftovers
    split <;> split <;> rfl
  unfold toSql Render.run
  unfold after at honward
  cases hrun : s.root.render settings s.initialState with
  | error e final =>
    rw [hrun] at honward
    exact honward
  | ok sql final =>
    rw [hrun] at honward
    rw [List.filterMap_append, hleftovers, List.append_nil]
    exact honward

/-- With its paths cut after the first `k` a statement has the same outcome, or it lacks the path
that its rendering takes next. -/
theorem toSql_take (s : Statement) (settings : Settings) {k : Nat} (hk : k ≤ s.namePaths.length) :
    (s.consumed settings ≤ k ∧
      ({ s with namePaths := s.namePaths.take k }.toSql settings).result =
        (s.toSql settings).result) ∨
    (k < s.consumed settings ∧
      ({ s with namePaths := s.namePaths.take k }.toSql settings).result =
        .error (.namePathsExhausted k k)) := by
  have hcut : s.initialState.Cut k
      { s with namePaths := s.namePaths.take k : Statement }.initialState :=
    ⟨⟨rfl, rfl, rfl⟩, rfl, rfl⟩
  have hcourse := (s.root.render_closed (CutsShort.closed k)).2 settings _ _ hcut (Nat.zero_le _) hk
  rw [← consumed_eq_index] at hcourse
  unfold toSql Render.run
  rcases hcourse with ⟨hle, hsame⟩ | ⟨hlt, final, hrun⟩
  · refine .inl ⟨hle, ?_⟩
    generalize s.root.render settings s.initialState = r at hsame ⊢
    generalize s.root.render settings
      { s with namePaths := s.namePaths.take k : Statement }.initialState = r' at hsame ⊢
    cases hsame with
    | ok a h => rfl
    | error e h => rfl
  · exact .inr ⟨hlt, by rw [hrun]⟩

/-- The SQL depends on the paths that were taken, whatever follows them. Without one of these, it is
the first that is missing which is reported. No rendering, whether it succeeds or fails, takes a
path that is not there: the paths are taken in their order, and at every node of a tree the cursor
is at most at the end. -/
theorem toSql_depends_on_taken_paths (s : Statement) (settings : Settings) :
    (∀ sql, (s.toSql settings).result = .ok sql →
      (∀ paths, paths.take (s.consumed settings) = s.namePaths.take (s.consumed settings) →
        ({ s with namePaths := paths }.toSql settings).result = .ok sql) ∧
      ∀ k < s.consumed settings,
        ({ s with namePaths := s.namePaths.take k }.toSql settings).result =
          .error (.namePathsExhausted k k)) ∧
    s.consumed settings ≤ s.namePaths.length ∧
    (s.toSql settings).log.filterMap Event.path? = List.range (s.consumed settings) ∧
    ∀ (n : Node) (state : State),
      (n.render.after settings state).cursor.paths = state.cursor.paths ∧
      state.cursor.index ≤ (n.render.after settings state).cursor.index ∧
      (n.render.after settings state).cursor.index ≤ state.cursor.paths.length := by
  have hle := s.consumed_le settings
  refine ⟨fun sql hsql => ⟨fun paths hpaths => ?_, fun k hk => ?_⟩, hle, s.toSql_log settings,
    fun n state => ?_⟩
  · -- both statements have the SQL of the one that has only the paths in common
    generalize hn : s.consumed settings = n at hle hpaths
    have hlength : n ≤ paths.length := by
      have h := congrArg List.length hpaths
      rw [List.length_take, List.length_take] at h
      omega
    have hcommon := s.toSql_take settings hle
    have hother := { s with namePaths := paths : Statement }.toSql_take settings hlength
    simp only [hpaths] at hother
    rcases hcommon with ⟨-, hcommon⟩ | ⟨hlt, -⟩
    · rw [hcommon, hsql] at hother
      rcases hother with ⟨-, hother⟩ | ⟨-, hother⟩
      · exact hother.symm
      · cases hother
    · omega
  · rcases s.toSql_take settings (Nat.le_trans (Nat.le_of_lt hk) hle) with ⟨hge, -⟩ | ⟨-, hcut⟩
    · omega
    · exact hcut
  · have honward := (n.render_leads settings state).onward
    exact ⟨honward.paths, honward.index_le, honward.index_le_length⟩

def deleteSelected : Statement where
  declaredPath := ["p"]
  namePaths := [["t"], ["f"], ["u"]]
  root := .deleteStmt "t" (some (.call "f" [.columnRef ⟨"x", "t", .scalar .int64⟩] (.scalar .bool)))

theorem deleteSelected_depends_on_taken_paths :
    ({ deleteSelected with namePaths := [["t"], ["f"]] }.toSql {}).result =
        .ok "DELETE FROM `p_t` WHERE p_f(`x`)" ∧
      ({ deleteSelected with namePaths := [["t"], ["f"], ["v"], []] }.toSql {}).result =
        .ok "DELETE FROM `p_t` WHERE p_f(`x`)" ∧
      ({ deleteSelected with namePaths := [["t"]] }.toSql {}).result =
        .error (.namePathsExhausted 1 1) := by
  have hsql : (deleteSelected.toSql {}).result = .ok "DELETE FROM `p_t` WHERE p_f(`x`)" := rfl
  have hconsumed : deleteSelected.consumed {} = 2 := by decide +kernel
  obtain ⟨hlocal, -⟩ := toSql_depends_on_taken_paths deleteSelected {}
  obtain ⟨hsame, hcut⟩ := hlocal _ hsql
  rw [hconsumed] at hsame hcut
  exact ⟨hsame _ rfl, hsame _ rfl, hcut 1 (by decide)⟩

end Statement
end ResolvedSql
