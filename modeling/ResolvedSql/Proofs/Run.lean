import ResolvedSql.Render.Node
set_option autoImplicit false

namespace ResolvedSql

def Settings.userCallee (settings : Settings) (name : String) : Render.Callee :=
  match settings.registry.find? name with
  | some body => .inlined name body
  | none => .named name

end ResolvedSql

namespace ResolvedSql.Render

variable {α β : Type}

theorem bind_apply (x : Render α) (f : α → Render β) (settings : Settings) (s : State) :
    (x >>= f) settings s =
      match x settings s with
      | .ok a s' => f a settings s'
      | .error e s' => .error e s' := by
  cases h : x settings s <;> simp [Bind.bind, ReaderT.bind, EStateM.bind, h]

theorem get_bind_apply (f : State → Render α) (settings : Settings) (s : State) :
    (get >>= f) settings s = f s settings s := rfl

theorem nextName_apply (settings : Settings) (s : State) :
    nextName settings s =
      match s.cursor.next? with
      | none => .error (.namePathsExhausted s.cursor.index s.cursor.paths.length) s
      | some (name, cursor) =>
        .ok name
          { s with cursor := cursor, log := s.log ++ [.nameResolved s.cursor.index name] } := by
  unfold nextName
  rw [get_bind_apply]
  cases s.cursor.next? <;> rfl

theorem currentScope_apply (settings : Settings) (s : State) :
    currentScope settings s =
      match s.analytic with
      | some scope => .ok scope s
      | none => .error .noAnalyticScope s := by
  unfold currentScope
  rw [get_bind_apply]
  cases s.analytic <;> rfl

theorem modifyScope_apply (f : AnalyticScope → AnalyticScope) (settings : Settings) (s : State) :
    modifyScope f settings s =
      match s.analytic with
      | some scope => .ok () { s with analytic := some (f scope) }
      | none => .error .noAnalyticScope s := by
  unfold modifyScope
  rw [bind_apply, currentScope_apply]
  cases s.analytic <;> rfl

theorem columnScope_apply (x : Render α) (settings : Settings) (s : State) :
    columnScope x settings s =
      match x settings { s with pending := ∅ } with
      | .ok a t => .ok (a, t.pending) { t with pending := s.pending }
      | .error e t => .error e { t with pending := s.pending } := by
  unfold columnScope
  rw [get_bind_apply, bind_apply]
  show (attempt x >>= _) settings { s with pending := ∅ } = _
  rw [bind_apply, attempt]
  cases x settings { s with pending := ∅ } <;> rfl

theorem analyticScope_apply (x : Render α) (settings : Settings) (s : State) :
    analyticScope x settings s =
      match x settings { s with analytic := some {} } with
      | .ok a t => .ok (a, t.analytic.getD {}) { t with analytic := s.analytic }
      | .error e t => .error e { t with analytic := s.analytic } := by
  unfold analyticScope
  rw [get_bind_apply, bind_apply]
  show (attempt x >>= _) settings { s with analytic := some {} } = _
  rw [bind_apply, attempt]
  cases x settings { s with analytic := some {} } <;> rfl

theorem resolveCallee_apply (function : String) (catalog : Catalog) (type : SqlType)
    (settings : Settings) (s : State) :
    resolveCallee function catalog type settings s =
      match catalog.builtin? function with
      | some bare => .ok (.named (catalog.mangle settings.config.functionPrefix bare type)) s
      | none =>
        match nextName settings s with
        | .ok name s' => .ok (settings.userCallee name) s'
        | .error e s' => .error e s' := by
  unfold resolveCallee Settings.userCallee
  cases catalog.builtin? function with
  | some bare => rfl
  | none =>
    simp only
    rw [bind_apply]
    cases nextName settings s with
    | error e s' => rfl
    | ok name s' =>
      simp only
      rw [bind_apply]
      show (match settings.registry.find? name with
        | some body => _
        | none => _ : Render Callee) settings s' = _
      cases settings.registry.find? name <;> rfl

theorem bind_run_eq_ok {x : Render α} {f : α → Render β} {settings : Settings} {s final : State}
    {b : β} : (x >>= f).run settings s = .ok b final ↔
      ∃ a mid, x.run settings s = .ok a mid ∧ (f a).run settings mid = .ok b final := by
  unfold run
  rw [bind_apply]
  cases x settings s with
  | ok a mid =>
    constructor
    · intro h
      exact ⟨a, mid, rfl, h⟩
    · rintro ⟨a', mid', hx, hf⟩
      cases hx
      exact hf
  | error e mid => simp

theorem bind_run_of_ok {x : Render α} {f : α → Render β} {settings : Settings} {s mid : State}
    {a : α} (h : x.run settings s = .ok a mid) :
    (x >>= f).run settings s = (f a).run settings mid := by
  unfold run at h ⊢
  rw [bind_apply, h]

theorem bind_run_eq_error {x : Render α} {f : α → Render β} {settings : Settings}
    {s final : State} {e : Error} : (x >>= f).run settings s = .error e final ↔
      x.run settings s = .error e final ∨
        ∃ a mid, x.run settings s = .ok a mid ∧ (f a).run settings mid = .error e final := by
  unfold run
  rw [bind_apply]
  cases x settings s with
  | ok a mid =>
    constructor
    · intro h
      exact .inr ⟨a, mid, rfl, h⟩
    · rintro (h | ⟨a', mid', hx, hf⟩)
      · cases h
      · cases hx
        exact hf
  | error e' mid => simp

theorem pure_run_eq_ok {a b : α} {settings : Settings} {s final : State} :
    (pure a : Render α).run settings s = .ok b final ↔ a = b ∧ s = final :=
  EStateM.Result.ok.injEq a s b final ▸ Iff.rfl

theorem pure_run_ne_error {a : α} {settings : Settings} {s final : State} {e : Error} :
    (pure a : Render α).run settings s ≠ .error e final := by
  intro h
  cases h

theorem throw_run_eq_error {e e' : Error} {settings : Settings} {s final : State} :
    (throw e : Render α).run settings s = .error e' final ↔ e = e' ∧ s = final :=
  EStateM.Result.error.injEq e s e' final ▸ Iff.rfl

theorem throw_run_ne_ok {e : Error} {a : α} {settings : Settings} {s final : State} :
    (throw e : Render α).run settings s ≠ .ok a final := by
  intro h
  cases h

theorem columnScope_run_eq_ok {x : Render α} {settings : Settings} {s final : State} {a : α}
    {left : Keyed String} : (columnScope x).run settings s = .ok (a, left) final ↔
      ∃ last, x.run settings { s with pending := ∅ } = .ok a last ∧
        left = last.pending ∧ final = { last with pending := s.pending } := by
  unfold run
  rw [columnScope_apply]
  cases x settings { s with pending := ∅ } with
  | ok b last =>
    constructor
    · intro h
      cases h
      exact ⟨last, rfl, rfl, rfl⟩
    · rintro ⟨last', hx, rfl, rfl⟩
      cases hx
      rfl
  | error e last => simp

theorem demand_run_eq_ok {r : Except Error α} {a : α} {settings : Settings} {s final : State} :
    (demand r).run settings s = .ok a final ↔ r = .ok a ∧ s = final := by
  cases r with
  | ok b =>
    rw [Except.ok.injEq]
    exact pure_run_eq_ok
  | error e =>
    constructor
    · intro h
      cases h
    · rintro ⟨h, -⟩
      cases h

theorem analyticScope_run_eq_ok {x : Render α} {settings : Settings} {s final : State} {a : α}
    {scope : AnalyticScope} : (analyticScope x).run settings s = .ok (a, scope) final ↔
      ∃ last, x.run settings { s with analytic := some {} } = .ok a last ∧
        scope = last.analytic.getD {} ∧ final = { last with analytic := s.analytic } := by
  unfold run
  rw [analyticScope_apply]
  cases x settings { s with analytic := some {} } with
  | ok b last =>
    constructor
    · intro h
      cases h
      exact ⟨last, rfl, rfl, rfl⟩
    · rintro ⟨last', hx, rfl, rfl⟩
      cases hx
      rfl
  | error e last => simp

theorem analyticScope_run_eq_error {x : Render α} {settings : Settings} {s final : State}
    {e : Error} (h : x.run settings { s with analytic := some {} } = .error e final) :
    (analyticScope x).run settings s = .error e { final with analytic := s.analytic } := by
  unfold run at h ⊢
  rw [analyticScope_apply, h]

theorem currentScope_run_eq_ok {scope : AnalyticScope} {settings : Settings} {s final : State} :
    currentScope.run settings s = .ok scope final ↔ s.analytic = some scope ∧ s = final := by
  unfold run
  rw [currentScope_apply]
  cases s.analytic with
  | none => simp
  | some inner => simp

theorem modifyScope_run_eq_ok {f : AnalyticScope → AnalyticScope} {settings : Settings}
    {s final : State} : (modifyScope f).run settings s = .ok () final ↔
      ∃ scope, s.analytic = some scope ∧ final = { s with analytic := some (f scope) } := by
  unfold run
  rw [modifyScope_apply]
  cases s.analytic with
  | none => simp
  | some inner => simp [eq_comm]

def each (x : α → Render β) : List α → Render (List β)
  | [] => return []
  | a :: r => do
    let b ← x a
    return b :: (← each x r)

theorem each_cons_run_eq_ok {x : α → Render β} {a : α} {r : List α} {settings : Settings}
    {s final : State} {bs : List β} : (each x (a :: r)).run settings s = .ok bs final ↔
      ∃ b t cs, (x a).run settings s = .ok b t ∧ (each x r).run settings t = .ok cs final ∧
        bs = b :: cs := by
  rw [each, bind_run_eq_ok]
  constructor
  · rintro ⟨b, t, hb, h⟩
    obtain ⟨cs, t', hcs, h⟩ := bind_run_eq_ok.1 h
    obtain ⟨rfl, rfl⟩ := pure_run_eq_ok.1 h
    exact ⟨b, t, cs, hb, hcs, rfl⟩
  · rintro ⟨b, t, cs, hb, hcs, rfl⟩
    exact ⟨b, t, hb, bind_run_eq_ok.2 ⟨cs, final, hcs, rfl⟩⟩

theorem length_of_each_run {x : α → Render β} {as : List α} {settings : Settings}
    {s final : State} {bs : List β} (h : (each x as).run settings s = .ok bs final) :
    bs.length = as.length := by
  induction as generalizing s bs with
  | nil =>
    obtain ⟨rfl, -⟩ := pure_run_eq_ok.1 h
    rfl
  | cons a r ih =>
    obtain ⟨b, t, cs, -, hr, rfl⟩ := each_cons_run_eq_ok.1 h
    rw [List.length_cons, List.length_cons, ih hr]

theorem each_append_run_eq_ok {x : α → Render β} {as r : List α} {settings : Settings}
    {s final : State} {bs : List β} : (each x (as ++ r)).run settings s = .ok bs final ↔
      ∃ cs t ds, (each x as).run settings s = .ok cs t ∧ (each x r).run settings t = .ok ds final ∧
        bs = cs ++ ds := by
  induction as generalizing s bs with
  | nil =>
    constructor
    · intro h
      exact ⟨[], s, bs, rfl, h, rfl⟩
    · rintro ⟨cs, t, ds, has, hr, rfl⟩
      obtain ⟨rfl, rfl⟩ := pure_run_eq_ok.1 has
      exact hr
  | cons a as ih =>
    rw [List.cons_append, each_cons_run_eq_ok]
    constructor
    · rintro ⟨b, t, more, hb, hmore, rfl⟩
      obtain ⟨cs, u, ds, hcs, hds, rfl⟩ := ih.1 hmore
      exact ⟨b :: cs, u, ds, each_cons_run_eq_ok.2 ⟨b, t, cs, hb, hcs, rfl⟩, hds, rfl⟩
    · rintro ⟨_, u, ds, has, hds, rfl⟩
      obtain ⟨b, t, cs, hb, hcs, rfl⟩ := each_cons_run_eq_ok.1 has
      exact ⟨b, t, cs ++ ds, hb, ih.2 ⟨cs, u, ds, hcs, hds, rfl⟩, rfl⟩

theorem each_run_eq_error {x : α → Render β} {as r : List α} {a : α} {settings : Settings}
    {s t final : State} {bs : List β} {e : Error}
    (h : (each x as).run settings s = .ok bs t) (ha : (x a).run settings t = .error e final) :
    (each x (as ++ a :: r)).run settings s = .error e final := by
  induction as generalizing s bs with
  | nil =>
    obtain ⟨-, rfl⟩ := pure_run_eq_ok.1 h
    exact bind_run_eq_error.2 (.inl ha)
  | cons b as ih =>
    obtain ⟨c, mid, cs, hb, has, -⟩ := each_cons_run_eq_ok.1 h
    rw [List.cons_append, each, bind_run_of_ok hb]
    exact bind_run_eq_error.2 (.inl (ih has))

/-- If the rendering has a result, the result satisfies `P`. -/
def Gives (settings : Settings) (x : Render α) (P : α → Prop) : Prop :=
  ∀ s a final, x.run settings s = .ok a final → P a

namespace Gives

variable {settings : Settings} {P : α → Prop} {Q : β → Prop}

theorem pure {a : α} (h : P a) : Gives settings (Pure.pure a) P := by
  intro s b final hb
  obtain ⟨rfl, -⟩ := pure_run_eq_ok.1 hb
  exact h

theorem bind {x : Render α} {f : α → Render β} (hx : Gives settings x P)
    (hf : ∀ a, P a → Gives settings (f a) Q) : Gives settings (x >>= f) Q := by
  intro s b final hb
  obtain ⟨a, mid, ha, hb⟩ := bind_run_eq_ok.1 hb
  exact hf a (hx s a mid ha) mid b final hb

theorem bind_last {x : Render α} {f : α → Render β} (hf : ∀ a, Gives settings (f a) Q) :
    Gives settings (x >>= f) Q := by
  intro s b final hb
  obtain ⟨a, mid, -, hb⟩ := bind_run_eq_ok.1 hb
  exact hf a mid b final hb

theorem throw (e : Error) : Gives settings (MonadExcept.throw e) P := by
  intro s a final h
  exact (throw_run_ne_ok h).elim

theorem throw_bind (e : Error) (f : α → Render β) : Gives settings (MonadExcept.throw e >>= f) Q :=
  .bind (P := fun _ => False) (.throw e) fun _ h => h.elim

theorem read : Gives settings MonadReader.read (· = settings) := by
  intro s a final h
  cases h
  rfl

theorem demand {r : Except Error α} (h : ∀ a, r = .ok a → P a) :
    Gives settings (Render.demand r) P := by
  intro s a final ha
  exact h a (demand_run_eq_ok.1 ha).1

theorem length {x : α → Render β} (as : List α) :
    Gives settings (each x as) (·.length = as.length) :=
  fun _ _ _ h => length_of_each_run h

theorem each_cons {x : α → Render β} {a : α} (as : List α) (h : Gives settings (x a) Q) :
    Gives settings (each x (a :: as)) fun bs =>
      ∃ b r, bs = b :: r ∧ Q b ∧ r.length = as.length := by
  intro s bs final hbs
  obtain ⟨b, t, r, hb, hr, rfl⟩ := each_cons_run_eq_ok.1 hbs
  exact ⟨b, r, rfl, h s b t hb, length_of_each_run hr⟩

end Gives
end ResolvedSql.Render

namespace ResolvedSql

open Text Render

/-- There is a path for the next reference, which gives it `name`, and `t` is `s` past that path. -/
structure State.Names (s : State) (name : String) (t : State) : Prop where
  index_lt : s.cursor.index < s.cursor.paths.length
  name_eq : name = (s.cursor.declared.merge s.cursor.paths[s.cursor.index]).flatten
  past : t = { s with
    cursor := { s.cursor with index := s.cursor.index + 1, index_le := index_lt }
    log := s.log ++ [.nameResolved s.cursor.index name] }

theorem Render.nextName_run_eq_ok {settings : Settings} {s t : State} {name : String} :
    nextName.run settings s = .ok name t ↔ s.Names name t := by
  unfold run
  rw [nextName_apply]
  by_cases hlt : s.cursor.index < s.cursor.paths.length
  · rw [Cursor.next?_of_lt hlt]
    constructor
    · intro h
      cases h
      exact ⟨hlt, rfl, rfl⟩
    · rintro ⟨-, rfl, rfl⟩
      rfl
  · rw [Cursor.next?_of_le (Nat.le_of_not_lt hlt)]
    constructor
    · intro h
      cases h
    · exact fun h => absurd h.index_lt hlt

theorem Render.nextName_run_eq_error {settings : Settings} {s t : State} {e : Error} :
    nextName.run settings s = .error e t ↔ s.cursor.paths.length ≤ s.cursor.index ∧
      e = .namePathsExhausted s.cursor.index s.cursor.paths.length ∧ t = s := by
  unfold run
  rw [nextName_apply]
  by_cases hle : s.cursor.paths.length ≤ s.cursor.index
  · rw [Cursor.next?_of_le hle]
    simp [hle, eq_comm]
  · rw [Cursor.next?_of_lt (Nat.lt_of_not_le hle)]
    simp [hle]

theorem Node.renderAll_eq (ns : List Node) : Node.renderAll ns = each Node.render ns := by
  induction ns with
  | nil => rfl
  | cons n r ih => rw [Node.renderAll, each, ih]

theorem ComputedColumn.renderAll_eq (cs : List ComputedColumn) :
    ComputedColumn.renderAll cs = each ComputedColumn.render cs := by
  induction cs with
  | nil => rfl
  | cons c r ih => rw [ComputedColumn.renderAll, each, ih]

theorem SetBranch.renderAll_eq (bs : List SetBranch) :
    SetBranch.renderAll bs = each SetBranch.render bs := by
  induction bs with
  | nil => rfl
  | cons b r ih => rw [SetBranch.renderAll, each, ih]

theorem NamedQuery.renderAll_eq (qs : List NamedQuery) :
    NamedQuery.renderAll qs = each NamedQuery.render qs := by
  induction qs with
  | nil => rfl
  | cons q r ih => rw [NamedQuery.renderAll, each, ih]

theorem CallGroup.renderAll_eq (gs : List CallGroup) :
    CallGroup.renderAll gs = each CallGroup.render gs := by
  induction gs with
  | nil => rfl
  | cons g r ih => rw [CallGroup.renderAll, each, ih]

theorem Assignment.renderAll_eq (as : List Assignment) :
    Assignment.renderAll as = each Assignment.render as := by
  induction as with
  | nil => rfl
  | cons a r ih => rw [Assignment.renderAll, each, ih]

def ComputedColumn.entry (c : ComputedColumn) (sql : String) : String :=
  sql ++ " AS " ++ quoteName c.column.name

theorem ComputedColumn.render_run_eq_ok {c : ComputedColumn} {settings : Settings} {s final : State}
    {sql : String} : c.render.run settings s = .ok sql final ↔
      ∃ t, c.expr.render.run settings s = .ok sql t ∧
        final = { t with pending := t.pending.insert c.column.name (c.entry sql) } := by
  cases c with
  | mk column expr =>
    rw [ComputedColumn.render, bind_run_eq_ok]
    constructor
    · rintro ⟨sql', t, hexpr, h⟩
      cases h
      exact ⟨t, hexpr, rfl⟩
    · rintro ⟨t, hexpr, rfl⟩
      exact ⟨sql, t, hexpr, rfl⟩

theorem Node.aggregateScan_render_run_eq_ok {columns : List Column} {input : Node}
    {keys aggregates : List ComputedColumn} {settings : Settings} {s final : State} {sql : String} :
    (Node.aggregateScan columns input keys aggregates).render.run settings s = .ok sql final ↔
      ∃ calls t groups u text,
        (each ComputedColumn.render aggregates).run settings s = .ok calls t ∧
        (each ComputedColumn.render keys).run settings t = .ok groups u ∧
        input.render.run settings u = .ok text final ∧ sql = groupText text groups := by
  rw [Node.render, ComputedColumn.renderAll_eq, ComputedColumn.renderAll_eq, bind_run_eq_ok]
  constructor
  · rintro ⟨calls, t, hcalls, h⟩
    obtain ⟨groups, u, hgroups, h⟩ := bind_run_eq_ok.1 h
    obtain ⟨text, _, htext, h⟩ := bind_run_eq_ok.1 h
    obtain ⟨rfl, rfl⟩ := pure_run_eq_ok.1 h
    exact ⟨calls, t, groups, u, text, hcalls, hgroups, htext, rfl⟩
  · rintro ⟨calls, t, groups, u, text, hcalls, hgroups, htext, rfl⟩
    refine ⟨calls, t, hcalls, bind_run_eq_ok.2 ⟨groups, u, hgroups, ?_⟩⟩
    exact bind_run_eq_ok.2 ⟨text, final, htext, rfl⟩

theorem CallGroup.render_run_eq_ok {g : CallGroup} {settings : Settings} {s final : State}
    {sql : String} : g.render.run settings s = .ok sql final ↔
      ∃ scope sqls, s.analytic = some scope ∧
        (each ComputedColumn.render g.calls).run settings
          { s with analytic := some (openGroup g scope) } = .ok sqls final ∧
        sql = commas sqls := by
  cases g with
  | mk partition order calls =>
    rw [CallGroup.render, ComputedColumn.renderAll_eq, bind_run_eq_ok]
    constructor
    · rintro ⟨_, t, hopen, h⟩
      obtain ⟨scope, hs, rfl⟩ := modifyScope_run_eq_ok.1 hopen
      obtain ⟨sqls, _, hcalls, h⟩ := bind_run_eq_ok.1 h
      obtain ⟨rfl, rfl⟩ := pure_run_eq_ok.1 h
      exact ⟨scope, sqls, hs, hcalls, rfl⟩
    · rintro ⟨scope, sqls, hs, hcalls, rfl⟩
      refine ⟨(), _, modifyScope_run_eq_ok.2 ⟨scope, hs, rfl⟩, ?_⟩
      exact bind_run_eq_ok.2 ⟨sqls, final, hcalls, rfl⟩

end ResolvedSql
