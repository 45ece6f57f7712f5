import ResolvedSql.Proofs.Meaning
/-!
Rendering does what the meaning of a tree says. From any state, rendering a tree gives the result
that the tree means, and it changes the state by the effects of that meaning and by nothing else:
the cursor moves past the paths of the sites that were resolved, the computed columns are pending,
and the noted columns are in the scope. This holds for errors as well.
-/
set_option autoImplicit false

namespace ResolvedSql

open Text Render

/-- The cursor at the path number `i`, or past the last one if there are fewer. -/
def Cursor.seek (c : Cursor) (i : Nat) : Cursor :=
  if h : i ≤ c.paths.length then { c with index := i, index_le := h }
  else { c with index := c.paths.length, index_le := Nat.le_refl _ }

namespace Cursor

theorem seek_of_le {c : Cursor} {i : Nat} (h : i ≤ c.paths.length) :
    c.seek i = ⟨c.declared, c.paths, i, h⟩ := dif_pos h

@[simp] theorem declared_seek (c : Cursor) (i : Nat) : (c.seek i).declared = c.declared := by
  unfold seek
  split <;> rfl

@[simp] theorem paths_seek (c : Cursor) (i : Nat) : (c.seek i).paths = c.paths := by
  unfold seek
  split <;> rfl

theorem index_seek (c : Cursor) (i : Nat) :
    (c.seek i).index = if i ≤ c.paths.length then i else c.paths.length := by
  unfold seek
  split <;> rfl

@[simp] theorem seek_index (c : Cursor) : c.seek c.index = c := seek_of_le c.index_le

@[simp] theorem seek_seek (c : Cursor) (i j : Nat) : (c.seek i).seek j = c.seek j := by
  ext1
  · simp
  · simp
  · simp [index_seek]

theorem seek_add (c : Cursor) (i j : Nat) : c.seek ((c.seek i).index + j) = c.seek (i + j) := by
  ext1
  · simp
  · simp
  · rw [index_seek, index_seek, index_seek]
    split
    · rfl
    · split <;> split <;> omega

theorem next?_seek (c : Cursor) {i : Nat} (hi : i ≤ c.paths.length) :
    (c.seek i).next? = c.paths[i]?.map fun path =>
      ((c.declared.merge path).flatten, c.seek (i + 1)) := by
  rw [seek_of_le hi]
  by_cases hlt : i < c.paths.length
  · rw [List.getElem?_eq_getElem hlt, Option.map_some, seek_of_le hlt]
    exact next?_of_lt hlt
  · rw [List.getElem?_eq_none (Nat.le_of_not_lt hlt)]
    exact next?_of_le (Nat.le_of_not_lt hlt)

end Cursor

/-- The name that the `k`-th path of a cursor gives, however many were taken. -/
def Cursor.nameAt (c : Cursor) (k : Nat) : Except Error String :=
  match c.paths[k]? with
  | some path => .ok (c.declared.merge path).flatten
  | none => .error (.namePathsExhausted k c.paths.length)

/-- Whether the `k`-th path leads to a function body. -/
def Settings.inlines (settings : Settings) (c : Cursor) (k : Nat) : Bool :=
  match c.nameAt k with
  | .ok name => (settings.registry.find? name).isSome
  | .error _ => false

/-- The sites have the names of the paths from the `i`-th on. -/
def Naming.Agrees (ρ : Naming) (c : Cursor) (i : Nat) (sites : List Site) : Prop :=
  ∀ k site, sites[k]? = some site → ρ.reference site = c.nameAt (i + k)

theorem Naming.agrees_append (ρ : Naming) (c : Cursor) (i : Nat) (as bs : List Site) :
    ρ.Agrees c i (as ++ bs) ↔ ρ.Agrees c i as ∧ ρ.Agrees c (i + as.length) bs := by
  constructor
  · intro h
    constructor
    · intro k site hk
      have hlt : k < as.length := (List.getElem?_eq_some_iff.1 hk).1
      exact h k site (by rw [List.getElem?_append_left hlt, hk])
    · intro k site hk
      have := h (as.length + k) site (by rw [List.getElem?_append_right (by omega)]; simpa using hk)
      rw [this, Nat.add_assoc]
  · rintro ⟨ha, hb⟩ k site hk
    by_cases hlt : k < as.length
    · exact ha k site (by rwa [List.getElem?_append_left hlt] at hk)
    · rw [List.getElem?_append_right (by omega)] at hk
      rw [hb (k - as.length) site hk]
      congr 1
      omega

theorem Naming.agrees_cons (ρ : Naming) (c : Cursor) (i : Nat) (site : Site) (r : List Site) :
    ρ.Agrees c i (site :: r) ↔ ρ.reference site = c.nameAt i ∧ ρ.Agrees c (i + 1) r := by
  have h := ρ.agrees_append c i [site] r
  rw [List.singleton_append] at h
  rw [h]
  constructor
  · rintro ⟨h₁, h₂⟩
    exact ⟨h₁ 0 site rfl, h₂⟩
  · rintro ⟨h₁, h₂⟩
    refine ⟨fun k s hk => ?_, h₂⟩
    have hk0 : k = 0 := by
      have := (List.getElem?_eq_some_iff.1 hk).1
      simp at this
      omega
    subst hk0
    simp at hk
    rw [← hk, h₁, Nat.add_zero]

/-- The state after effects that were reported by `log`. -/
def State.after (s : State) (e : Effects) (log : List Event) : State :=
  { cursor := s.cursor.seek (s.cursor.index + e.resolved.length)
    pending := s.pending.insertAll e.computed
    analytic := s.analytic.map fun scope => { scope with columns := scope.columns ++ e.met }
    log := s.log ++ log }

theorem State.after_append (s : State) (e f : Effects) (log more : List Event) :
    s.after (e ++ f) (log ++ more) = (s.after e log).after f more := by
  simp only [State.after, Effects.resolved_append, Effects.computed_append, Effects.met_append,
    Keyed.insertAll_append, List.length_append, Option.map_map, Function.comp_def, Cursor.seek_seek,
    Cursor.seek_add, Nat.add_assoc, List.append_assoc]

theorem State.after_empty (s : State) (log : List Event) :
    s.after {} log = { s with log := s.log ++ log } := by
  cases s with
  | mk cursor pending analytic l =>
    cases analytic <;> simp [State.after, Keyed.insertAll]

theorem State.index_after {s : State} {e : Effects}
    (h : s.cursor.index + e.resolved.length ≤ s.cursor.paths.length) (log : List Event) :
    (s.after e log).cursor.index = s.cursor.index + e.resolved.length := by
  rw [State.after, Cursor.seek_of_le h]

theorem State.bare_after (s : State) (e : Effects) (log : List Event) :
    (s.after e log).analytic.map AnalyticScope.bare = s.analytic.map AnalyticScope.bare := by
  simp only [State.after, Option.map_map]
  rfl

namespace Meaning

variable {α : Type}

@[simp] theorem pure_bind {β : Type} (a : α) (g : α → Meaning β) : (pure a >>= g) = g a := by
  show (⟨(g a).result, {} ++ (g a).effects⟩ : Meaning β) = g a
  rfl

theorem bind_assoc {β γ : Type} (m : Meaning α) (g : α → Meaning β) (h : β → Meaning γ) :
    m >>= g >>= h = m >>= fun a => g a >>= h := by
  cases m with
  | mk result effects =>
    cases result with
    | error e => rfl
    | ok a =>
      simp only [Bind.bind]
      cases (g a).result <;> simp [Effects.append_assoc]

theorem result_bind {β : Type} {m : Meaning α} {g : α → Meaning β} {b : β} :
    (m >>= g).result = .ok b ↔ ∃ a, m.result = .ok a ∧ (g a).result = .ok b := by
  cases hm : m.result with
  | error e => simp [Bind.bind, hm]
  | ok a => simp [Bind.bind, hm]

theorem resolve_result (ρ : Naming) (site : Site) : (resolve ρ site).result = ρ.reference site := by
  unfold resolve
  cases h : ρ.reference site <;> simp [fail, demand]

def finish (m : Meaning α) (s : State) (log : List Event) : EStateM.Result Error State α :=
  match m.result with
  | .ok a => .ok a (s.after m.effects log)
  | .error e => .error e (s.after m.effects log)

/-- The paths from the `i`-th on name the sites that were resolved; if there is a result, these
are all of `sites`. -/
structure Resolves (m : Meaning α) (ρ : Naming) (c : Cursor) (i : Nat) (sites : List Site) :
    Prop where
  bound : i + m.effects.resolved.length ≤ c.paths.length
  named : ∀ r ∈ m.effects.resolved, ρ.reference r.1 = .ok r.2
  complete : ∀ a, m.result = .ok a → m.effects.resolved.map Prod.fst = sites

theorem Resolves.length_eq {m : Meaning α} {ρ : Naming} {c : Cursor} {i : Nat} {sites : List Site}
    (h : m.Resolves ρ c i sites) {a : α} (ha : m.result = .ok a) :
    m.effects.resolved.length = sites.length := by
  rw [← h.complete a ha, List.length_map]

theorem Resolves.bind {β : Type} {m : Meaning α} {g : α → Meaning β} {ρ : Naming} {c : Cursor}
    {i : Nat} {sites sites' : List Site} (h : m.Resolves ρ c i sites) {a : α}
    (ha : m.result = .ok a) (h' : (g a).Resolves ρ c (i + sites.length) sites') :
    (m >>= g).Resolves ρ c i (sites ++ sites') := by
  have hb : (m >>= g) = ⟨(g a).result, m.effects ++ (g a).effects⟩ := by simp only [Bind.bind, ha]
  have hlen := h.length_eq ha
  rw [hb]
  refine ⟨?_, ?_, ?_⟩
  · have := h'.bound
    simp only [Effects.resolved_append, List.length_append]
    omega
  · intro pair hp
    rcases List.mem_append.1 hp with hp | hp
    · exact h.named pair hp
    · exact h'.named pair hp
  · intro b hb
    simp only [Effects.resolved_append, List.map_append]
    rw [h.complete a ha, h'.complete b hb]

end Meaning

section
variable {α β : Type} {settings : Settings} {c : Cursor} {ρ : Naming} {scope : Option AnalyticScope}
variable {r r' : Route} {x : Render α} {m : Meaning α}

/-- Inside `scope`, rendering `x` does what `m` says and visits the sites of `r`. -/
def Realizes (settings : Settings) (c : Cursor) (ρ : Naming) (scope : Option AnalyticScope)
    (r : Route) (x : Render α) (m : Meaning α) : Prop :=
  ∀ (s : State) (i : Nat), s.cursor = c.seek i → i ≤ c.paths.length →
    s.analytic.map AnalyticScope.bare = scope → ρ.Agrees c i (r i) →
    (∃ log, x settings s = m.finish s log) ∧ m.Resolves ρ c i (r i)

namespace Realizes

theorem pure (a : α) : Realizes settings c ρ scope .none (Pure.pure a) (Pure.pure a) := by
  intro s i hc hi _ _
  refine ⟨⟨[], ?_⟩, ⟨hi, by simp [Pure.pure], fun _ _ => rfl⟩⟩
  show EStateM.Result.ok a s = .ok a (s.after {} [])
  rw [State.after_empty, List.append_nil]

theorem bind {f : α → Render β} {g : α → Meaning β} (hx : Realizes settings c ρ scope r x m)
    (hf : ∀ a, m.result = .ok a → Realizes settings c ρ scope r' (f a) (g a)) :
    Realizes settings c ρ scope (r ++ r') (x >>= f) (m >>= g) := by
  intro s i hc hi hs hρ
  rw [Route.append_apply, Naming.agrees_append] at hρ
  obtain ⟨⟨log, hrun⟩, hres⟩ := hx s i hc hi hs hρ.1
  cases hm : m.result with
  | error e =>
    have hb : (m >>= g) = ⟨.error e, m.effects⟩ := by simp only [Bind.bind, hm]
    rw [hb]
    refine ⟨⟨log, ?_⟩, ⟨hres.bound, hres.named, by simp⟩⟩
    rw [Render.bind_apply, hrun]
    simp [Meaning.finish, hm]
  | ok a =>
    have hlen := hres.length_eq hm
    have hc' : (s.after m.effects log).cursor = c.seek (i + (r i).length) := by
      simp [State.after, hc, hlen, Cursor.seek_add]
    obtain ⟨⟨more, hrun'⟩, hres'⟩ := hf a hm (s.after m.effects log)
      (i + (r i).length) hc'
      (hlen ▸ hres.bound) (by rw [State.bare_after, hs]) hρ.2
    refine ⟨⟨log ++ more, ?_⟩, hres.bind hm hres'⟩
    have hb : (m >>= g) = ⟨(g a).result, m.effects ++ (g a).effects⟩ := by
      simp only [Bind.bind, hm]
    rw [hb, Render.bind_apply, hrun]
    simp only [Meaning.finish, hm, State.after_append] at hrun' ⊢
    exact hrun'

theorem bind_last {f : α → Render β} {g : α → Meaning β} (hx : Realizes settings c ρ scope r x m)
    (hf : ∀ a, m.result = .ok a → Realizes settings c ρ scope .none (f a) (g a)) :
    Realizes settings c ρ scope r (x >>= f) (m >>= g) := by
  rw [← Route.append_none r]
  exact bind hx hf

theorem of_eq {y : Render α} (h : Realizes settings c ρ scope r y m)
    (hxy : ∀ s, x settings s = y settings s) : Realizes settings c ρ scope r x m := by
  intro s i hc hi hs hρ
  rw [hxy s]
  exact h s i hc hi hs hρ

theorem read_bind {f : Settings → Render α} (h : Realizes settings c ρ scope r (f settings) m) :
    Realizes settings c ρ scope r (read >>= f) m :=
  h.of_eq fun _ => rfl

theorem functionPrefix_bind {f : String → Render α}
    (h : Realizes settings c ρ scope r (f settings.config.functionPrefix) m) :
    Realizes settings c ρ scope r (functionPrefix >>= f) m :=
  h.of_eq fun _ => rfl

theorem report_bind {f : Unit → Render α} (event : Event)
    (h : Realizes settings c ρ scope r (f ()) m) :
    Realizes settings c ρ scope r (report event >>= f) m := by
  intro s i hc hi hs hρ
  obtain ⟨⟨log, hrun⟩, hres⟩ := h { s with log := s.log ++ [event] } i hc hi hs hρ
  refine ⟨⟨event :: log, ?_⟩, hres⟩
  have hafter : ({ s with log := s.log ++ [event] } : State).after m.effects log =
      s.after m.effects (event :: log) := by simp [State.after]
  simp only [Meaning.finish, hafter] at hrun ⊢
  exact hrun

theorem demand (v : Except Error α) :
    Realizes settings c ρ scope .none (Render.demand v) (Meaning.demand v) := by
  intro s i hc hi _ _
  refine ⟨⟨[], ?_⟩, ⟨hi, by simp [Meaning.demand], fun _ _ => rfl⟩⟩
  cases v with
  | ok a =>
    show EStateM.Result.ok a s = .ok a (s.after {} [])
    rw [State.after_empty, List.append_nil]
  | error e =>
    show EStateM.Result.error e s = .error e (s.after {} [])
    rw [State.after_empty, List.append_nil]

theorem throw (e : Error) :
    Realizes settings c ρ scope r (MonadExcept.throw e) (Meaning.fail e : Meaning α) := by
  intro s i hc hi _ _
  refine ⟨⟨[], ?_⟩, ⟨hi, by simp [Meaning.fail, Meaning.demand],
    by simp [Meaning.fail, Meaning.demand]⟩⟩
  show EStateM.Result.error e s = .error e (s.after {} [])
  rw [State.after_empty, List.append_nil]

theorem throw_bind {f : β → Render α} (e : Error) :
    Realizes settings c ρ scope r (MonadExcept.throw e >>= f) (Meaning.fail e) :=
  (throw e).of_eq fun _ => rfl

theorem nextName (site : Site) :
    Realizes settings c ρ scope (.one site) Render.nextName (Meaning.resolve ρ site) := by
  intro s i hc hi _ hρ
  have hsite : ρ.reference site = c.nameAt i := ((ρ.agrees_cons c i site []).1 hρ).1
  unfold Cursor.nameAt at hsite
  rw [nextName_apply]
  cases hp : c.paths[i]? with
  | none =>
    have hn : s.cursor.next? = none := by rw [hc, c.next?_seek hi, hp]; rfl
    have hm : Meaning.resolve ρ site = Meaning.fail (.namePathsExhausted i c.paths.length) := by
      simp only [Meaning.resolve, hsite, hp]
    rw [hm, hn]
    refine ⟨⟨[], ?_⟩, ⟨hi, by simp [Meaning.fail, Meaning.demand],
      by simp [Meaning.fail, Meaning.demand]⟩⟩
    have hs : s.cursor.index = i ∧ s.cursor.paths = c.paths := by simp [hc, Cursor.seek_of_le hi]
    simp [Meaning.finish, Meaning.fail, Meaning.demand, State.after_empty, hs]
  | some path =>
    have hlt : i < c.paths.length := (List.getElem?_eq_some_iff.1 hp).1
    have hn : s.cursor.next? =
        some ((c.declared.merge path).flatten, c.seek (i + 1)) := by
      rw [hc, c.next?_seek hi, hp]
      rfl
    have hm : Meaning.resolve ρ site = ⟨.ok (c.declared.merge path).flatten,
        { resolved := [(site, (c.declared.merge path).flatten)] }⟩ := by
      simp only [Meaning.resolve, hsite, hp]
    rw [hm, hn]
    refine ⟨⟨[.nameResolved i (c.declared.merge path).flatten], ?_⟩, ⟨hlt, ?_, fun _ _ => rfl⟩⟩
    · cases s with
      | mk cursor pending analytic log =>
        obtain rfl : cursor = c.seek i := hc
        have hindex : (c.seek i).index = i := by rw [Cursor.seek_of_le hi]
        cases analytic <;> simp [Meaning.finish, State.after, Keyed.insertAll, hindex]
    · intro pair hpair
      rw [List.mem_singleton.1 hpair, hsite, hp]

theorem inlineBody (name : String) (body : FunctionBody) (args : List String) :
    Realizes settings c ρ scope .none (Render.inlineBody name body args)
      (Meaning.demand (body.inline name args)) := by
  intro s i hc hi hs hρ
  cases hb : body.inline name args with
  | error e =>
    have h : Realizes settings c ρ scope .none (Render.demand (.error e : Except Error String)) _ :=
      demand _
    exact (h.of_eq fun s => by rw [Render.inlineBody, hb]; rfl) s i hc hi hs hρ
  | ok sql =>
    have h : Realizes settings c ρ scope .none (report (.bodyInlined name) >>= fun _ => _) _ :=
      report_bind _ (pure sql)
    exact (h.of_eq fun s => by rw [Render.inlineBody, hb]; rfl) s i hc hi hs hρ

/-- A call takes its own path after those of its arguments, and only a call that is not inlined
goes on to its options. -/
theorem callee {f : Callee → Render α} {g : Callee → Meaning α} (p : Position) (function : String)
    (catalog : Catalog) (type : SqlType)
    (hnamed : ∀ name, Realizes settings c ρ scope r (f (.named name)) (g (.named name)))
    (hinlined : ∀ name body,
      Realizes settings c ρ scope .none (f (.inlined name body)) (g (.inlined name body))) :
    Realizes settings c ρ scope
      (.call (settings.inlines c) ⟨.function, p⟩ (catalog.isUser function) r)
      (resolveCallee function catalog type >>= f)
      (calleeMeaning settings ρ p function catalog type >>= g) := by
  cases hb : catalog.builtin? function with
  | some bare =>
    have hu : catalog.isUser function = false := by
      rw [Bool.eq_false_iff, ne_eq, Catalog.isUser_iff, hb]
      simp
    have hm : calleeMeaning settings ρ p function catalog type =
        Pure.pure (.named (catalog.mangle settings.config.functionPrefix bare type)) := by
      simp only [calleeMeaning, hb]
    rw [hm, Meaning.pure_bind, hu]
    refine (hnamed _).of_eq fun s => ?_
    rw [resolveCallee, hb]
    rfl
  | none =>
    have hu : catalog.isUser function = true := (Catalog.isUser_iff _ _).2 hb
    intro s i hc hi hs hρ
    -- at this point of the run it is known whether the path leads to a body
    have hroute : Route.call (settings.inlines c) ⟨.function, p⟩ (catalog.isUser function) r i =
        (Route.one ⟨.function, p⟩ ++ Route.when (!settings.inlines c i) r) i := by
      cases h : settings.inlines c i <;> simp [Route.call, Route.when, hu, h]
    rw [hroute] at hρ ⊢
    have hname : ρ.reference ⟨.function, p⟩ = c.nameAt i := ((ρ.agrees_cons c i _ _).1 hρ).1
    have hm : calleeMeaning settings ρ p function catalog type >>= g =
        Meaning.resolve ρ ⟨.function, p⟩ >>= fun name => g (settings.userCallee name) := by
      simp only [calleeMeaning, hb, Meaning.bind_assoc, Meaning.pure_bind]
    have hx : ∀ s, (resolveCallee function catalog type >>= f) settings s =
        (Render.nextName >>= fun name => f (settings.userCallee name)) settings s := by
      intro s
      rw [bind_apply, bind_apply, resolveCallee_apply, hb]
      cases Render.nextName settings s <;> rfl
    rw [hm]
    refine ((bind (nextName _) fun name hn => ?_).of_eq hx) s i hc hi hs hρ
    have hi : settings.inlines c i = (settings.registry.find? name).isSome := by
      rw [Meaning.resolve_result] at hn
      unfold Settings.inlines
      rw [← hname, hn]
    rw [hi]
    unfold Settings.userCallee
    cases settings.registry.find? name with
    | none => exact hnamed name
    | some body => exact hinlined name body

theorem addPending (column : Column) (entry sql : String) :
    Realizes settings c ρ scope .none (Render.addPending column entry >>= fun _ => Pure.pure sql)
      ⟨.ok sql, { computed := [(column.name, entry)] }⟩ := by
  intro s i hc hi _ _
  refine ⟨⟨[], ?_⟩, ⟨hi, by simp, fun _ _ => rfl⟩⟩
  show EStateM.Result.ok sql { s with pending := s.pending.insert column.name entry } = _
  cases s with
  | mk cursor pending analytic log =>
    cases analytic <;> simp [Meaning.finish, State.after, Keyed.insertAll]

theorem computedColumn {expr : Meaning String} {cc : ComputedColumn}
    (h : Realizes settings c ρ scope r cc.expr.render expr) :
    Realizes settings c ρ scope r cc.render (Meaning.compute cc.column expr) := by
  cases cc
  rw [ComputedColumn.render, Meaning.compute]
  exact bind_last h fun sql _ => addPending _ _ _

theorem columnScope (h : Realizes settings c ρ scope r x m) :
    Realizes settings c ρ scope r (Render.columnScope x) m.ownColumns := by
  intro s i hc hi hs hρ
  obtain ⟨⟨log, hrun⟩, hres⟩ := h { s with pending := ∅ } i hc hi hs hρ
  refine ⟨⟨log, ?_⟩, ⟨hres.bound, hres.named, fun a ha => ?_⟩⟩
  · rw [columnScope_apply, hrun]
    cases hm : m.result <;>
      simp [Meaning.finish, Meaning.ownColumns, hm, State.after, Except.map, Keyed.insertAll,
        EmptyCollection.emptyCollection]
  · cases hm : m.result with
    | error e => simp [Meaning.ownColumns, hm, Except.map] at ha
    | ok b => exact hres.complete b hm

theorem currentScope_bind {f : AnalyticScope → Render α} {around : AnalyticScope}
    (h : ∀ inner, inner.bare = around → Realizes settings c ρ (some around) r (f inner) m) :
    Realizes settings c ρ (some around) r (currentScope >>= f) m := by
  intro s i hc hi hs hρ
  obtain ⟨inner, hinner, hbare⟩ := Option.map_eq_some_iff.1 hs
  obtain ⟨⟨log, hrun⟩, hres⟩ := h inner hbare s i hc hi hs hρ
  refine ⟨⟨log, ?_⟩, hres⟩
  rw [bind_apply, currentScope_apply, hinner]
  exact hrun

theorem currentScope_none {f : AnalyticScope → Render α} :
    Realizes settings c ρ none r (currentScope >>= f) (Meaning.fail .noAnalyticScope) := by
  intro s i hc hi hs hρ
  have hnone : s.analytic = none := Option.map_eq_none_iff.1 hs
  have h : Realizes settings c ρ none r (MonadExcept.throw .noAnalyticScope : Render α) _ := throw _
  obtain ⟨⟨log, hrun⟩, hres⟩ := h s i hc hi hs hρ
  refine ⟨⟨log, ?_⟩, hres⟩
  rw [bind_apply, currentScope_apply, hnone]
  exact hrun

theorem addColumn {around : AnalyticScope} (sql : String) :
    Realizes settings c ρ (some around) .none (modifyScope (·.addColumn sql))
      (Meaning.meet [sql]) := by
  intro s i hc hi hs hρ
  obtain ⟨inner, hinner, hbare⟩ := Option.map_eq_some_iff.1 hs
  refine ⟨⟨[], ?_⟩, ⟨hi, by simp [Meaning.meet], fun _ _ => rfl⟩⟩
  rw [modifyScope_apply, hinner]
  simp [Meaning.finish, Meaning.meet, State.after, hinner, Keyed.insertAll, AnalyticScope.addColumn]

theorem list {γ : Type} {y : γ → Render α} {n : γ → Position → Meaning α} {t : γ → Position → Route}
    {as : List γ} (h : ∀ a ∈ as, ∀ q, Realizes settings c ρ scope (t a q) (y a) (n a q))
    (p : Position) (j : Nat) :
    Realizes settings c ρ scope (.list p j (as.map t)) (each y as)
      (Meaning.list p j (as.map n)) := by
  induction as generalizing j with
  | nil => exact pure []
  | cons a as ih =>
    simp only [List.map_cons, Route.list_cons, each, Meaning.list]
    refine bind (h a (List.mem_cons_self ..) _) fun b _ => ?_
    exact bind_last (ih (fun a ha => h a (List.mem_cons_of_mem _ ha)) (j + 1)) fun bs _ => pure _

/-- The arguments of a window call are noted unless they are constants, and the last column among
them that has a table decides which table is read. -/
theorem arguments {around : AnalyticScope} {n : Node → Position → Meaning String}
    {t : Node → Position → Route} {es : List Node}
    (h : ∀ e ∈ es, ∀ q, Realizes settings c ρ (some around) (t e q) e.render (n e q))
    (p : Position) (j : Nat) (table : Option String) :
    Realizes settings c ρ (some around) (.list p j (es.map t)) (Node.renderArguments es table)
      (Meaning.list p j (es.map fun e q => do
          let sql ← n e q
          Meaning.meet (if isConstant e then [] else [sql])
          return sql) >>= fun sqls =>
        Pure.pure (sqls, es.foldl (fun table e => argumentTable e table) table)) := by
  induction es generalizing j table with
  | nil =>
    rw [Node.renderArguments]
    exact pure _
  | cons e es ih =>
    rw [Node.renderArguments]
    simp only [List.map_cons, Route.list_cons, Meaning.list, Meaning.bind_assoc, Meaning.pure_bind,
      List.foldl_cons]
    refine bind (h e (List.mem_cons_self ..) _) fun sql _ => ?_
    have ih := ih (fun e he => h e (List.mem_cons_of_mem _ he)) (j + 1) (argumentTable e table)
    have hrest := bind_last ih fun sqls _ => pure (sql :: sqls.1, sqls.2)
    simp only [Meaning.bind_assoc, Meaning.pure_bind] at hrest
    cases isConstant e with
    | true => exact hrest
    | false =>
      rw [← Route.none_append (Route.list p (j + 1) (es.map t))]
      exact bind (addColumn sql) fun _ _ => hrest

theorem arguments_bind {around : AnalyticScope} {n : Node → Position → Meaning String}
    {t : Node → Position → Route} {es : List Node}
    {f : List String × Option String → Render α} {g : List String → Meaning α}
    (h : ∀ e ∈ es, ∀ q, Realizes settings c ρ (some around) (t e q) e.render (n e q))
    (p : Position) (j : Nat) (table : Option String)
    (hf : ∀ sqls, Realizes settings c ρ (some around) r
      (f (sqls, es.foldl (fun table e => argumentTable e table) table)) (g sqls)) :
    Realizes settings c ρ (some around) (.list p j (es.map t) ++ r)
      (Node.renderArguments es table >>= f)
      (Meaning.list p j (es.map fun e q => do
          let sql ← n e q
          Meaning.meet (if isConstant e then [] else [sql])
          return sql) >>= g) := by
  have hrest : ∀ a, (Meaning.list p j (es.map fun e q => do
          let sql ← n e q
          Meaning.meet (if isConstant e then [] else [sql])
          return sql) >>= fun sqls =>
        Pure.pure (sqls, es.foldl (fun table e => argumentTable e table) table)).result = .ok a →
      Realizes settings c ρ (some around) r (f a) (g a.1) := by
    intro a ha
    obtain ⟨sqls, -, ha⟩ := Meaning.result_bind.1 ha
    cases ha
    exact hf sqls
  have hbind := bind (arguments h p j table) hrest
  rw [Meaning.bind_assoc] at hbind
  exact hbind

theorem rows {n : Node → Position → Meaning String} {t : Node → Position → Route}
    {rows : List (List Node)}
    (h : ∀ row ∈ rows, ∀ e ∈ row, ∀ q, Realizes settings c ρ scope (t e q) e.render (n e q))
    (p : Position) (width j : Nat) :
    Realizes settings c ρ scope (.list p j (rows.map fun row q => .list q 0 (row.map t)))
      (Node.renderRows width j rows)
      (Meaning.list p j (rows.map fun row q =>
        rowMeaning width (q.headD 0) row.length (Meaning.list q 0 (row.map n)))) := by
  induction rows generalizing j with
  | nil =>
    rw [Node.renderRows]
    exact pure _
  | cons row rows ih =>
    rw [Node.renderRows]
    simp only [List.map_cons, Route.list_cons, Meaning.list, rowMeaning, List.headD_cons]
    by_cases hw : row.length ≠ width
    · rw [if_pos hw, if_pos hw]
      exact throw_bind _
    · rw [if_neg hw, if_neg hw, Node.renderAll_eq, Meaning.bind_assoc]
      refine bind (list (h row (List.mem_cons_self ..)) _ _) fun sqls _ => ?_
      rw [Meaning.pure_bind]
      have ih := ih (fun row hr => h row (List.mem_cons_of_mem _ hr)) (j + 1)
      exact bind_last ih fun _ _ => pure _

end Realizes

/-- Inside a scope that is `around` but for its columns, `x` does what `m` says, except that it may
leave a scope with another table, partition or order. -/
def Collects (settings : Settings) (c : Cursor) (ρ : Naming) (around : AnalyticScope) (r : Route)
    (x : Render α) (m : Meaning Unit) : Prop :=
  ∀ (s : State) (i : Nat) (inner : AnalyticScope), s.cursor = c.seek i →
    i ≤ c.paths.length → s.analytic = some inner → inner.bare = around → ρ.Agrees c i (r i) →
    (∃ (log : List Event) (last : AnalyticScope),
      last.columns = inner.columns ++ m.effects.met ∧
      match m.result with
      | .ok _ => ∃ a, x settings s = .ok a { s.after m.effects log with analytic := some last }
      | .error e => x settings s = .error e { s.after m.effects log with analytic := some last }) ∧
    m.Resolves ρ c i (r i)

theorem openGroup_columns (g : CallGroup) (inner : AnalyticScope) :
    (openGroup g inner).columns = inner.columns ++ (openGroup g inner.bare).columns := rfl

theorem CallGroup.render_apply (g : CallGroup) (settings : Settings) (s : State)
    (inner : AnalyticScope) (hs : s.analytic = some inner) :
    g.render settings s =
      match ComputedColumn.renderAll g.calls settings
        { s with analytic := some (openGroup g inner) } with
      | .ok sqls s' => .ok (commas sqls) s'
      | .error e s' => .error e s' := by
  cases g with
  | mk partition order calls =>
    have ho : openGroup ⟨partition, order, []⟩ inner =
        openGroup ⟨partition, order, calls⟩ inner := rfl
    rw [CallGroup.render, bind_apply, modifyScope_apply, hs]
    simp only
    rw [bind_apply, ho]
    cases ComputedColumn.renderAll calls settings _ <;> rfl

theorem Collects.groups {y : CallGroup → AnalyticScope → Position → Meaning (List String)}
    {t : CallGroup → Position → Route} {gs : List CallGroup}
    (h : ∀ g ∈ gs, ∀ (inner : AnalyticScope) (q : Position),
      Realizes settings c ρ (some inner) (t g q) (ComputedColumn.renderAll g.calls) (y g inner q))
    (p : Position) (j : Nat) (around : AnalyticScope) :
    Collects settings c ρ around (.list p j (gs.map t)) (CallGroup.renderAll gs)
      (Meaning.groups p j around (gs.map fun g => (g, y g))) := by
  induction gs generalizing j around with
  | nil =>
    intro s i inner hc hi hs hb hρ
    refine ⟨⟨[], inner, by simp [Meaning.groups, Pure.pure], [], ?_⟩, ⟨hi, ?_, fun _ _ => rfl⟩⟩
    · have hafter : { s.after {} [] with analytic := some inner } = s := by
        rw [State.after_empty, ← hs, List.append_nil]
      rw [CallGroup.renderAll]
      show EStateM.Result.ok [] s = .ok [] { s.after {} [] with analytic := some inner }
      rw [hafter]
    · simp [Meaning.groups, Pure.pure]
  | cons g gs ih =>
    intro s i inner hc hi hs hb hρ
    subst hb
    simp only [List.map_cons, Route.list_cons, Route.append_apply] at hρ ⊢
    rw [Naming.agrees_append] at hρ
    have hcalls := h g (List.mem_cons_self ..) (openGroup g inner.bare).bare (j :: p)
    obtain ⟨⟨log, hrun⟩, hres⟩ :=
      hcalls { s with analytic := some (openGroup g inner) } i hc hi rfl hρ.1
    rw [CallGroup.renderAll, bind_apply, CallGroup.render_apply _ _ _ _ hs, hrun, Meaning.groups]
    generalize y g (openGroup g inner.bare).bare (j :: p) = calls at hrun hres ⊢
    obtain ⟨result, effects⟩ := calls
    cases result with
    | error e =>
      refine ⟨⟨log,
        { openGroup g inner with columns := (openGroup g inner).columns ++ effects.met }, ?_, rfl⟩,
        ⟨hres.bound, hres.named, by simp [Bind.bind, Meaning.meet]⟩⟩
      show (openGroup g inner).columns ++ effects.met =
        inner.columns ++ ((openGroup g inner.bare).columns ++ effects.met)
      rw [openGroup_columns, List.append_assoc]
    | ok sqls =>
      have hlen : effects.resolved.length = (t g (j :: p) i).length := hres.length_eq rfl
      have hmeet : (Meaning.meet (openGroup g inner.bare).columns).Resolves ρ c i [] :=
        ⟨hi, by simp [Meaning.meet], fun _ _ => rfl⟩
      obtain ⟨⟨more, last, hlast, hrun'⟩, hres'⟩ :=
        ih (fun g hg => h g (List.mem_cons_of_mem _ hg)) (j + 1) (openGroup g inner.bare).bare
          (State.after { s with analytic := some (openGroup g inner) } effects log)
          (i + (t g (j :: p) i).length) _ (by simp [State.after, hc, hlen, Cursor.seek_add])
          (hlen ▸ hres.bound) rfl
          rfl hρ.2
      simp only [Meaning.finish, bind_apply]
      generalize Meaning.groups p (j + 1) (openGroup g inner.bare).bare
        (gs.map fun g => (g, y g)) = rest at hlast hrun' hres' ⊢
      obtain ⟨result', effects'⟩ := rest
      refine ⟨⟨log ++ more, last, ?_, ?_⟩, hmeet.bind rfl (hres.bind rfl hres')⟩
      · rw [hlast]
        show (openGroup g inner).columns ++ effects.met ++ effects'.met =
          inner.columns ++ ((openGroup g inner.bare).columns ++ (effects.met ++ effects'.met))
        rw [openGroup_columns, List.append_assoc, List.append_assoc]
      · have hafter :
            { (State.after { s with analytic := some (openGroup g inner) } effects log).after
              effects' more with analytic := some last } =
            { s.after (effects ++ effects') (log ++ more) with analytic := some last } := by
          rw [← State.after_append]
          rfl
        cases result' with
        | error e =>
          simp only at hrun'
          simp only [hrun', hafter]
          rfl
        | ok u =>
          obtain ⟨texts, hrun'⟩ := hrun'
          simp only [hrun', hafter]
          exact ⟨_, rfl⟩

namespace Realizes

theorem analyticScope {m : Meaning Unit} (h : Collects settings c ρ {} r x m) :
    Realizes settings c ρ scope r (Render.analyticScope x >>= fun a => Pure.pure a.2.columns)
      (m.ownScope >>= fun a => Pure.pure a.2) := by
  intro s i hc hi hs hρ
  obtain ⟨⟨log, last, hlast, hrun⟩, hres⟩ :=
    h { s with analytic := some {} } i {} hc hi rfl rfl hρ
  have hmap (o : Option AnalyticScope) :
      o.map (fun a => { a with columns := a.columns ++ [] }) = o := by cases o <;> simp
  rw [bind_apply, analyticScope_apply]
  obtain ⟨result, effects⟩ := m
  cases result with
  | error e =>
    refine ⟨⟨log, ?_⟩, ⟨hres.bound, hres.named, by simp [Bind.bind, Meaning.ownScope, Except.map]⟩⟩
    simp only at hrun
    rw [hrun]
    simp only [Bind.bind, Meaning.ownScope, Except.map, Meaning.finish, State.after, hmap]
  | ok u =>
    obtain ⟨a, hrun⟩ := hrun
    have hown :
        (Meaning.ownScope ⟨.ok u, effects⟩ >>= fun a => Pure.pure a.2 : Meaning (List String)) =
          ⟨.ok effects.met, { effects with met := [] }⟩ := by
      simp [Bind.bind, Meaning.ownScope, Except.map, Pure.pure, Effects.append_empty]
    rw [hown]
    refine ⟨⟨log, ?_⟩, ⟨hres.bound, hres.named, fun _ _ => hres.complete u rfl⟩⟩
    rw [hrun]
    simp only [Meaning.finish, State.after, hmap, Option.getD_some, hlast]
    rfl

theorem analyticScope_last {f : List String → Render β} {g : List String → Meaning β}
    {m : Meaning Unit} (h : Collects settings c ρ {} r x m)
    (hf : ∀ met, Realizes settings c ρ scope .none (f met) (g met)) :
    Realizes settings c ρ scope r (Render.analyticScope x >>= fun a => f a.2.columns)
      (m.ownScope >>= fun a => g a.2) := by
  have hlast : Realizes settings c ρ scope r _ _ := bind_last (analyticScope h) fun met _ => hf met
  simp only [Meaning.bind_assoc, Meaning.pure_bind, LawfulMonad.bind_assoc,
    LawfulMonad.pure_bind] at hlast
  exact hlast

theorem limit {e : Node} {m : Meaning String} (h : Realizes settings c ρ scope r e.render m) :
    Realizes settings c ρ scope r (Node.renderLimit (some e)) (do
      let sql ← m
      return [optionCall settings.config.functionPrefix "limit" [sql]]) := by
  rw [Node.renderLimit]
  exact bind_last h fun sql _ => functionPrefix_bind (pure _)

theorem boundary (edge : String) (code : Int32) (offset : Option Node) {m : Meaning String}
    (h : Realizes settings c ρ scope r (Node.renderOption offset) m) :
    Realizes settings c ρ scope (.when (Boundary.rendersOffset code) r)
      (Boundary.renderOption edge (some ⟨code, offset⟩))
      (Boundary.meaning settings edge code m) := by
  rw [Boundary.renderOption, Boundary.render, Boundary.meaning]
  rw [LawfulMonad.bind_assoc, ← Route.none_append (Route.when _ r)]
  refine bind (demand _) fun kind hk => ?_
  have hoffset : Boundary.rendersOffset code = kind.hasOffset := by
    rw [Boundary.rendersOffset, show BoundaryKind.ofCode code = .ok kind from hk]
  rw [LawfulMonad.bind_assoc, hoffset]
  refine functionPrefix_bind ?_
  cases kind.hasOffset with
  | false => exact (pure _).of_eq fun _ => rfl
  | true =>
    simp only [Route.when, if_true]
    rw [LawfulMonad.bind_assoc]
    refine bind_last h fun sql _ => ?_
    by_cases hsql : sql = ""
    · rw [if_pos hsql, if_pos hsql]
      exact (throw_bind _).of_eq fun _ => rfl
    · rw [if_neg hsql, if_neg hsql]
      exact (pure _).of_eq fun _ => rfl

theorem boundaryOption (edge : String) (o : Option Boundary) {n : Node → Meaning String}
    {t : Node → Route} :
    (∀ e ∈ (o.bind (·.offset)).toList, Realizes settings c ρ scope (t e) e.render (n e)) →
    Realizes settings c ρ scope
      (match o with
      | none => .none
      | some ⟨code, offset⟩ => .when (Boundary.rendersOffset code) (match offset with
        | none => .none
        | some e => t e))
      (Boundary.renderOption edge o)
      (match o with
      | none => Pure.pure []
      | some ⟨code, offset⟩ => Boundary.meaning settings edge code (match offset with
        | none => Pure.pure ""
        | some e => n e)) := by
  intro h
  cases o with
  | none =>
    rw [Boundary.renderOption]
    exact pure _
  | some b =>
    obtain ⟨code, offset⟩ := b
    refine boundary edge code offset ?_
    cases offset with
    | none =>
      rw [Node.renderOption]
      exact pure _
    | some e =>
      rw [Node.renderOption]
      exact h e (by simp)

theorem frame (unit : Int32) {first last : Option Boundary} {m m' : Meaning (List String)}
    (h : Realizes settings c ρ scope r (Boundary.renderOption "start" first) m)
    (h' : Realizes settings c ρ scope r' (Boundary.renderOption "end" last) m') :
    Realizes settings c ρ scope (r ++ r') (Frame.renderOption (some ⟨unit, first, last⟩))
      (Frame.meaning settings unit m m') := by
  rw [Frame.renderOption, Frame.render, Frame.meaning, ← Route.none_append (r ++ r')]
  refine bind (demand _) fun unit _ => functionPrefix_bind (bind h fun starts _ => ?_)
  exact bind_last h' fun ends _ => pure _

end Realizes

end
end ResolvedSql
