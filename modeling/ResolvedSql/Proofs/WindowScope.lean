import ResolvedSql.Proofs.PendingColumns
/-!
Only window calls have to do with the scope of the analytic scan around them. A tree without window
calls neither reads that scope nor changes it, and neither does an analytic scan inside such a tree,
whose calls have a scope of their own. The input of that scan has none: it is rendered in the scope
around.
-/
set_option autoImplicit false

namespace ResolvedSql

open Render

/-- There is no window call in the tree, except in the groups of analytic scans. -/
inductive Node.Windowless : Node → Prop
  | intro {n : Node} (here : n.isWindowCall = false) (parts : ∀ e ∈ n.scopeParts, e.Windowless) :
    n.Windowless

theorem Node.Windowless.leaf {n : Node} (here : n.isWindowCall = false) (h : n.scopeParts = []) :
    n.Windowless := by
  refine .intro here ?_
  rw [h]
  simp

/-- The state with columns added to the scope around, if there is one. -/
def State.note (s : State) (columns : List String) : State :=
  { s with analytic := s.analytic.map fun scope =>
    { scope with columns := scope.columns ++ columns } }

theorem State.note_nil (s : State) : s.note [] = s := by
  simp [State.note]

theorem State.analytic_note {s t : State} (h : s.analytic = t.analytic) (columns : List String) :
    (s.note columns).analytic = (t.note columns).analytic := by
  simp only [State.note, h]

theorem State.note_note (s : State) (columns more : List String) :
    (s.note columns).note more = s.note (columns ++ more) := by
  simp [State.note, Function.comp_def]

namespace Render

variable {α β : Type}

/-- Whatever the scope around, the rendering ends in the same way and leaves the scope as it is. -/
def Aloof (x : Render α) : Prop :=
  ∀ (settings : Settings) (s : State), ∃ (result : Except Error α) (final : State),
    ∀ scope, x settings { s with analytic := scope } =
      conclude result { final with analytic := scope }

namespace Aloof

theorem bind {x : Render α} {f : α → Render β} (hx : x.Aloof) (hf : ∀ a, (f a).Aloof) :
    (x >>= f).Aloof := by
  intro settings s
  obtain ⟨result, middle, hx⟩ := hx settings s
  cases result with
  | error e =>
    refine ⟨.error e, middle, fun scope => ?_⟩
    rw [bind_apply, hx]
    rfl
  | ok a =>
    obtain ⟨result, final, hf⟩ := hf a settings middle
    refine ⟨result, final, fun scope => ?_⟩
    rw [bind_apply, hx]
    exact hf scope

theorem nextName : Render.nextName.Aloof := by
  intro settings s
  cases h : s.cursor.next? with
  | none =>
    refine ⟨.error (.namePathsExhausted s.cursor.index s.cursor.paths.length), s, fun scope => ?_⟩
    rw [nextName_apply, h]
    rfl
  | some next =>
    let log := s.log ++ [.nameResolved s.cursor.index next.1]
    refine ⟨.ok next.1, { s with cursor := next.2, log := log }, fun scope => ?_⟩
    rw [nextName_apply, h]
    rfl

theorem columnScope {x : Render α} (hx : x.Aloof) : (Render.columnScope x).Aloof := by
  intro settings s
  obtain ⟨result, final, hx⟩ := hx settings { s with pending := ∅ }
  refine ⟨result.map (·, final.pending), { final with pending := s.pending }, fun scope => ?_⟩
  rw [columnScope_apply]
  have hrun : x settings { s with analytic := scope, pending := ∅ } = _ := hx scope
  simp only [hrun]
  cases result <;> rfl

theorem analyticScope (x : Render α) : (Render.analyticScope x).Aloof := by
  intro settings s
  cases hx : x settings { s with analytic := some {} } with
  | ok a final =>
    refine ⟨.ok (a, final.analytic.getD {}), final, fun scope => ?_⟩
    rw [analyticScope_apply, hx]
    rfl
  | error e final =>
    refine ⟨.error e, final, fun scope => ?_⟩
    rw [analyticScope_apply, hx]
    rfl

theorem stable : Stable (fun _ x => x.Aloof) (fun _ _ => True) where
  pure a _ s := ⟨.ok a, s, fun _ => rfl⟩
  bind := bind
  throw e _ s := ⟨.error e, s, fun _ => rfl⟩
  read settings s := ⟨.ok settings, s, fun _ => rfl⟩
  report event _ _ s := ⟨.ok (), { s with log := s.log ++ [event] }, fun _ => rfl⟩
  nextName := nextName
  addPending column _ _ s :=
    ⟨.ok (), { s with pending := s.pending.insert column.name _ }, fun _ => rfl⟩
  columnScope := columnScope
  grouped _ := trivial
  groupBind _ _ := trivial
  openGroup _ := trivial
  analyticScope {_ x} _ := analyticScope x

theorem run_eq_ok {x : Render α} (hx : x.Aloof) {settings : Settings} {s final : State} {a : α}
    (h : x.run settings s = .ok a final) :
    final.analytic = s.analytic ∧
      ∀ scope, x.run settings { s with analytic := scope } =
        .ok a { final with analytic := scope } := by
  obtain ⟨result, last, hrun⟩ := hx settings s
  have hfinal : conclude result { last with analytic := s.analytic } = .ok a final :=
    (hrun s.analytic).symm.trans h
  cases result with
  | error e => cases hfinal
  | ok b =>
    cases hfinal
    exact ⟨rfl, hrun⟩

theorem run_note {x : Render α} (hx : x.Aloof) {settings : Settings} {s final : State} {a : α}
    {columns : List String} (h : x.run settings (s.note columns) = .ok a final) :
    ∃ t, x.run settings s = .ok a t ∧ final = t.note columns := by
  obtain ⟨hscope, hrun⟩ := hx.run_eq_ok h
  refine ⟨{ final with analytic := s.analytic }, hrun s.analytic, ?_⟩
  show final = { final with analytic := (s.note columns).analytic }
  rw [← hscope]

end Aloof
end Render

namespace Node

theorem Windowless.render_aloof {n : Node} (h : n.Windowless) : n.render.Aloof := by
  induction h with
  | intro here _ ih => exact render_stable Aloof.stable here ih fun _ _ => trivial

end Node
end ResolvedSql
