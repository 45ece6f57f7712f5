import ResolvedSql.Proofs.Closure
/-!
Pending columns are written and never read, except by the projection that they wait for. So what is
pending when a rendering starts has no effect on its text or its error, nor on the rest of the
state, and when it ends the same columns are pending, but for those that were computed anew.
-/
set_option autoImplicit false

namespace ResolvedSql

namespace Render

variable {α β : Type}

def conclude (result : Except Error α) (s : State) : EStateM.Result Error State α :=
  match result with
  | .ok a => .ok a s
  | .error e => .error e s

/-- Whatever is pending, the rendering ends in the same way and computes the same columns. -/
def Isolated (x : Render α) : Prop :=
  ∀ (settings : Settings) (s : State),
    ∃ (result : Except Error α) (final : State) (computed : List (String × String)),
      ∀ pending, x settings { s with pending := pending } =
        conclude result { final with pending := pending.insertAll computed }

namespace Isolated

theorem bind {x : Render α} {f : α → Render β} (hx : x.Isolated) (hf : ∀ a, (f a).Isolated) :
    (x >>= f).Isolated := by
  intro settings s
  obtain ⟨result, middle, computed, hx⟩ := hx settings s
  cases result with
  | error e =>
    refine ⟨.error e, middle, computed, fun pending => ?_⟩
    rw [bind_apply, hx]
    rfl
  | ok a =>
    obtain ⟨result, final, more, hf⟩ := hf a settings middle
    refine ⟨result, final, computed ++ more, fun pending => ?_⟩
    rw [bind_apply, hx, Keyed.insertAll_append]
    exact hf _

theorem nextName : Render.nextName.Isolated := by
  intro settings s
  cases h : s.cursor.next? with
  | none =>
    refine ⟨.error (.namePathsExhausted s.cursor.index s.cursor.paths.length), s, [], ?_⟩
    intro pending
    rw [nextName_apply, h]
    rfl
  | some next =>
    let log := s.log ++ [.nameResolved s.cursor.index next.1]
    refine ⟨.ok next.1, { s with cursor := next.2, log := log }, [], fun pending => ?_⟩
    rw [nextName_apply, h]
    rfl

theorem currentScope : Render.currentScope.Isolated := by
  intro settings s
  cases h : s.analytic with
  | none =>
    refine ⟨.error .noAnalyticScope, s, [], fun pending => ?_⟩
    rw [currentScope_apply, h]
    rfl
  | some scope =>
    refine ⟨.ok scope, s, [], fun pending => ?_⟩
    rw [currentScope_apply, h]
    rfl

theorem modifyScope (f : AnalyticScope → AnalyticScope) : (Render.modifyScope f).Isolated := by
  intro settings s
  cases h : s.analytic with
  | none =>
    refine ⟨.error .noAnalyticScope, s, [], fun pending => ?_⟩
    rw [modifyScope_apply, h]
    rfl
  | some scope =>
    refine ⟨.ok (), { s with analytic := some (f scope) }, [], fun pending => ?_⟩
    rw [modifyScope_apply]
    rfl

theorem columnScope {x : Render α} (hx : x.Isolated) : (Render.columnScope x).Isolated := by
  intro settings s
  obtain ⟨result, final, computed, hx⟩ := hx settings s
  have hrun (pending : Keyed String) :
      Render.columnScope x settings { s with pending := pending } =
        conclude (result.map (·, Keyed.empty.insertAll computed))
          { final with pending := pending } := by
    rw [columnScope_apply, hx ∅]
    cases result <;> rfl
  exact ⟨_, final, [], hrun⟩

theorem analyticScope {x : Render α} (hx : x.Isolated) : (Render.analyticScope x).Isolated := by
  intro settings s
  obtain ⟨result, final, computed, hx⟩ := hx settings { s with analytic := some {} }
  refine ⟨result.map (·, final.analytic.getD {}), { final with analytic := s.analytic }, computed,
    fun pending => ?_⟩
  rw [analyticScope_apply, hx pending]
  cases result <;> rfl

theorem closed : Closed (fun _ x => x.Isolated) (fun _ x => x.Isolated) where
  pure a _ s := ⟨.ok a, s, [], fun _ => rfl⟩
  bind := bind
  throw e _ s := ⟨.error e, s, [], fun _ => rfl⟩
  read settings s := ⟨.ok settings, s, [], fun _ => rfl⟩
  report event _ _ s := ⟨.ok (), { s with log := s.log ++ [event] }, [], fun _ => rfl⟩
  nextName := nextName
  addPending column _ _ s := ⟨.ok (), s, [(column.name, _)], fun _ => rfl⟩
  columnScope := columnScope
  currentScope := currentScope
  addColumn _ := modifyScope _
  grouped hx := hx
  groupBind := bind
  openGroup _ := modifyScope _
  analyticScope := analyticScope

end Isolated

theorem pending_after_columnScope (x : Render α) (settings : Settings) (s : State) :
    ((columnScope x).after settings s).pending = s.pending := by
  rw [after_columnScope]

theorem pending_after_bind {x : Render α} {f : α → Render β} {settings : Settings}
    (hx : ∀ s, (x.after settings s).pending = s.pending)
    (hf : ∀ a s, ((f a).after settings s).pending = s.pending) (s : State) :
    ((x >>= f).after settings s).pending = s.pending :=
  after_bind_of (R := fun s t => t.pending = s.pending) (fun h h' => h'.trans h) hx hf s

end Render

namespace Node

open Render

theorem pending_after_projectScan (columns : List Column) (computed : List ComputedColumn)
    (input : Node) (settings : Settings) (s : State) :
    ((projectScan columns computed input).render.after settings s).pending = s.pending := by
  rw [Node.render]
  refine pending_after_bind (pending_after_columnScope _ settings) (fun own => ?_) s
  exact pending_after_bind (pending_after_columnScope _ settings) fun below s => rfl

/-- From states that differ in their pending columns only, rendering a node ends with the same text
or the same error, and in states that differ in their pending columns only. What is pending then is
what was pending before, overridden by columns that do not depend on it. After a projection it is
exactly what was pending before. -/
theorem render_isolates_pending (settings : Settings) (s : State) :
    (∀ n : Node, ∃ (result : Except Error String) (final : State) (computed : Keyed String),
      ∀ pending : Keyed String, ∃ left : Keyed String,
        n.render.run settings { s with pending := pending } =
          conclude result { final with pending := left } ∧
        ∀ name, left.find? name = (computed.find? name).or (pending.find? name)) ∧
    ∀ columns computed input,
      ((projectScan columns computed input).render.after settings s).pending = s.pending := by
  refine ⟨fun n => ?_, fun columns computed input =>
    pending_after_projectScan columns computed input settings s⟩
  obtain ⟨result, final, computed, hrun⟩ := n.render_closed Isolated.closed settings s
  refine ⟨result, final, Keyed.empty.insertAll computed, fun pending => ?_⟩
  exact ⟨pending.insertAll computed, hrun pending, pending.find?_insertAll computed⟩

end Node
end ResolvedSql
