import ResolvedSql.Proofs.Closure
import ResolvedSql.Statement
set_option autoImplicit false

namespace ResolvedSql

namespace NamePath

/-- The longest front of `d` that does not have the segment. -/
structure IsLongestFront (segment : String) (p d : NamePath) : Prop where
  isPrefix : p <+: d
  free : segment ∉ p
  longest : ∀ q, q <+: d → segment ∉ q → q.length ≤ p.length

/-- The segments before the first that is equal to the given one. -/
def before (d : NamePath) (segment : String) : NamePath := d.takeWhile fun s => s ≠ segment

theorem before_cons (s : String) (d : NamePath) (segment : String) :
    before (s :: d) segment = if s = segment then [] else s :: before d segment := by
  unfold before
  rw [List.takeWhile_cons]
  by_cases h : s = segment <;> simp [h]

theorem merge_cons (d : NamePath) (head : String) (r : NamePath) :
    d.merge (head :: r) = d.before head ++ head :: r := rfl

theorem length_le_before {q d : NamePath} {segment : String} (hq : q <+: d) (hfree : segment ∉ q) :
    q.length ≤ (d.before segment).length := by
  induction d generalizing q with
  | nil =>
    rw [List.prefix_nil.1 hq]
    exact Nat.zero_le _
  | cons s d ih =>
    cases q with
    | nil => exact Nat.zero_le _
    | cons t q =>
      obtain ⟨rfl, htail⟩ := List.cons_prefix_cons.1 hq
      rw [List.mem_cons, not_or] at hfree
      rw [before_cons, if_neg (Ne.symm hfree.1)]
      exact Nat.succ_le_succ (ih htail hfree.2)

theorem isLongestFront_before (d : NamePath) (segment : String) :
    IsLongestFront segment (d.before segment) d where
  isPrefix := List.takeWhile_prefix _
  free h := by simpa using List.all_eq_true.1 List.all_takeWhile segment h
  longest _ := length_le_before

theorem before_append_cons {x : NamePath} {segment : String} (h : segment ∉ x) (y : NamePath) :
    before (x ++ segment :: y) segment = x := by
  induction x with
  | nil => simp [before_cons]
  | cons s x ih =>
    rw [List.mem_cons, not_or] at h
    rw [List.cons_append, before_cons, if_neg (Ne.symm h.1), ih h.2]

theorem merge_self (d : NamePath) : d.merge d = d := by
  cases d with
  | nil => rfl
  | cons s d => simp [merge_cons, before_cons]

/-- What is qualified starts with the first segment of `d`, unless `d` lent it nothing. -/
theorem merge_merge (d r : NamePath) : d.merge (d.merge r) = d.merge r := by
  cases r with
  | nil => exact merge_self d
  | cons head r =>
    rw [merge_cons]
    cases d with
    | nil => rfl
    | cons s d =>
      by_cases h : s = head
      · simp [before_cons, merge_cons, h]
      · rw [before_cons, if_neg h, List.cons_append, merge_cons, before_cons, if_pos rfl]
        rfl

end NamePath

namespace Cursor

def qualified (c : Cursor) : Cursor where
  declared := c.declared
  paths := c.paths.map c.declared.merge
  index := c.index
  index_le := by
    rw [List.length_map]
    exact c.index_le

theorem next?_qualified (c : Cursor) :
    c.qualified.next? = c.next?.map fun next => (next.1, next.2.qualified) := by
  have hlength : c.qualified.paths.length = c.paths.length := List.length_map ..
  by_cases h : c.index < c.paths.length
  · rw [next?_of_lt h, next?_of_lt (c := c.qualified) (hlength.symm ▸ h)]
    simp [qualified, NamePath.merge_merge]
  · have h := Nat.le_of_not_lt h
    rw [next?_of_le h, next?_of_le (c := c.qualified) (hlength.symm ▸ h)]
    rfl

end Cursor

def State.qualified (s : State) : State := { s with cursor := s.cursor.qualified }

namespace Render

variable {α β : Type}

def Result.qualified : EStateM.Result Error State α → EStateM.Result Error State α
  | .ok a s => .ok a s.qualified
  | .error e s => .error e s.qualified

def QualifiesAlike (x : Render α) : Prop :=
  ∀ settings s, x settings s.qualified = Result.qualified (x settings s)

namespace QualifiesAlike

theorem bind {x : Render α} {f : α → Render β} (hx : x.QualifiesAlike)
    (hf : ∀ a, (f a).QualifiesAlike) : (x >>= f).QualifiesAlike := by
  intro settings s
  rw [bind_apply, bind_apply, hx]
  cases x settings s with
  | ok a t => exact hf a settings t
  | error e t => rfl

theorem nextName : Render.nextName.QualifiesAlike := by
  intro settings s
  have hnext : s.qualified.cursor.next? = _ := s.cursor.next?_qualified
  rw [nextName_apply, nextName_apply, hnext]
  cases s.cursor.next? with
  | none => simp [Result.qualified, State.qualified, Cursor.qualified]
  | some next => rfl

theorem currentScope : Render.currentScope.QualifiesAlike := by
  intro settings s
  have hscope : s.qualified.analytic = s.analytic := rfl
  rw [currentScope_apply, currentScope_apply, hscope]
  cases s.analytic <;> rfl

theorem modifyScope (f : AnalyticScope → AnalyticScope) :
    (Render.modifyScope f).QualifiesAlike := by
  intro settings s
  have hscope : s.qualified.analytic = s.analytic := rfl
  rw [modifyScope_apply, modifyScope_apply, hscope]
  cases s.analytic <;> rfl

theorem columnScope {x : Render α} (hx : x.QualifiesAlike) :
    (Render.columnScope x).QualifiesAlike := by
  intro settings s
  have hinside := hx settings { s with pending := ∅ }
  unfold State.qualified at hinside ⊢
  rw [columnScope_apply, columnScope_apply]
  simp only [hinside]
  cases x settings { s with pending := ∅ } <;> rfl

theorem analyticScope {x : Render α} (hx : x.QualifiesAlike) :
    (Render.analyticScope x).QualifiesAlike := by
  intro settings s
  have hinside := hx settings { s with analytic := some {} }
  unfold State.qualified at hinside ⊢
  rw [analyticScope_apply, analyticScope_apply]
  simp only [hinside]
  cases x settings { s with analytic := some {} } <;> rfl

theorem closed : Closed (fun _ x => x.QualifiesAlike) (fun _ x => x.QualifiesAlike) where
  pure _ _ _ := rfl
  bind := bind
  throw _ _ _ := rfl
  read _ _ := rfl
  report _ _ _ _ := rfl
  nextName := nextName
  addPending _ _ _ _ := rfl
  columnScope := columnScope
  currentScope := currentScope
  addColumn _ := modifyScope _
  grouped hx := hx
  groupBind := bind
  openGroup _ := modifyScope _
  analyticScope := analyticScope

end QualifiesAlike
end Render

namespace Statement

def qualified (s : Statement) : Statement :=
  { s with namePaths := s.namePaths.map s.declaredPath.merge }

theorem initialState_qualified (s : Statement) :
    s.qualified.initialState = s.initialState.qualified := by
  simp [initialState, qualified, State.qualified, Cursor.qualified, Cursor.start]

theorem leftovers_qualified (s : State) : leftovers s.qualified = leftovers s := by
  have hremaining : s.qualified.cursor.remaining = s.cursor.remaining := by
    simp [State.qualified, Cursor.qualified, Cursor.remaining]
  unfold leftovers
  rw [hremaining]
  rfl

theorem toSql_qualified (s : Statement) (settings : Settings) :
    s.qualified.toSql settings = s.toSql settings := by
  unfold toSql Render.run
  rw [initialState_qualified]
  have hroot : s.qualified.root = s.root := rfl
  rw [hroot, s.root.render_closed Render.QualifiesAlike.closed]
  cases s.root.render settings s.initialState with
  | ok sql final =>
    simp only [Render.Result.qualified, leftovers_qualified]
    rfl
  | error e final => rfl

end Statement

namespace NamePath

/-- A path that is qualified already stays as it is, and so does the outcome of a statement if its
paths are qualified beforehand. The declared path lends the longest front it can without the head of
the path. Where its end is the start of the path, that part appears once. -/
theorem merge_stable_and_maximal :
    (∀ d r : NamePath, d.merge (d.merge r) = d.merge r) ∧
    (∀ (d r : NamePath) (h : r ≠ []), ∃ p, IsLongestFront (r.head h) p d ∧ d.merge r = p ++ r) ∧
    (∀ (x y z : NamePath) (h : y ≠ []), y.head h ∉ x → (x ++ y).merge (y ++ z) = x ++ y ++ z) ∧
    ∀ (s : Statement) (settings : Settings), s.qualified.toSql settings = s.toSql settings := by
  refine ⟨merge_merge, fun d r h => ?_, fun x y z h hx => ?_, Statement.toSql_qualified⟩
  · cases r with
    | nil => exact (h rfl).elim
    | cons head r => exact ⟨d.before head, isLongestFront_before d head, rfl⟩
  · cases y with
    | nil => exact (h rfl).elim
    | cons head y =>
      have hfront : before (x ++ head :: y) head = x := before_append_cons hx y
      rw [List.cons_append, merge_cons, hfront]
      simp

/-- The declared path has the head of the path twice, and its end overlaps with the path. -/
theorem repeatedHead_stable_and_maximal :
    (∃ p, IsLongestFront "b" p ["a", "b", "a", "b"] ∧
      merge ["a", "b", "a", "b"] ["b", "c"] = p ++ ["b", "c"]) ∧
    merge ["a", "b", "a", "b"] ["b", "a", "b", "c"] = ["a", "b", "a", "b", "c"] :=
  ⟨merge_stable_and_maximal.2.1 ["a", "b", "a", "b"] ["b", "c"] (by simp),
    merge_stable_and_maximal.2.2.1 ["a"] ["b", "a", "b"] ["c"] (by simp) (by simp)⟩

end NamePath
end ResolvedSql
