import ResolvedSql.Proofs.KeyedNames
import ResolvedSql.Proofs.Occurrences
set_option autoImplicit false

namespace ResolvedSql

open Text Render

namespace Node

/-- The computed columns of a scan that wait for a projection around it. -/
def ownColumns : Node → List ComputedColumn
  | .aggregateScan _ _ keys aggregates => aggregates ++ keys
  | .analyticScan _ _ groups => groups.flatMap (·.calls)
  | _ => []

def isProjection : Node → Bool
  | .projectScan _ _ _ => true
  | _ => false

/-- Whether the body of the called function takes the place of a call that has options. -/
def isInlined (settings : Settings) (ρ : Naming) (p : Position) : Node → Bool
  | .aggregateCall function _ _ _ _ _ =>
    (Catalog.aggregate.builtin? function).isNone && ρ.inlines settings p
  | .analyticCall function _ _ _ _ =>
    (Catalog.window.builtin? function).isNone && ρ.inlines settings p
  | _ => false

/-- Rendering the tree at `p` leaves a column of this name pending: one of its own, or one of a part
that is rendered with it, unless it is a projection. -/
inductive Leaves (settings : Settings) (ρ : Naming) : Node → Position → String → Prop
  | own {n : Node} {p : Position} {c : ComputedColumn} (h : c ∈ n.ownColumns) :
    Leaves settings ρ n p c.column.name
  | part {n c : Node} {p q : Position} {name : String} (hscan : n.isProjection = false)
    (hc : n.Part p c q)
    (hrendered : ∀ k, q = k :: p → n.leavesOut (n.isInlined settings ρ p) k = false)
    (h : Leaves settings ρ c q name) : Leaves settings ρ n p name

theorem leaves_iff {settings : Settings} {ρ : Naming} {n : Node} {p : Position} {name : String} :
    n.Leaves settings ρ p name ↔ (∃ c ∈ n.ownColumns, c.column.name = name) ∨
      n.isProjection = false ∧ ∃ c q, n.Part p c q ∧
        (∀ k, q = k :: p → n.leavesOut (n.isInlined settings ρ p) k = false) ∧
        c.Leaves settings ρ q name := by
  constructor
  · intro h
    cases h with
    | own h => exact .inl ⟨_, h, rfl⟩
    | part hscan hc hrendered h => exact .inr ⟨hscan, _, _, hc, hrendered, h⟩
  · rintro (⟨c, hc, rfl⟩ | ⟨hscan, c, q, hc, hrendered, h⟩)
    · exact .own hc
    · exact .part hscan hc hrendered h

end Node

namespace Meaning

variable {α β : Type}

/-- If there is a result, the computed columns are those with a name in `S`. -/
def Computes (m : Meaning α) (S : String → Prop) : Prop :=
  ∀ a, m.result = .ok a → ∀ name, name ∈ Keyed.names m.effects.computed ↔ S name

namespace Computes

variable {m : Meaning α} {S T : String → Prop}

theorem congr (h : m.Computes S) (hST : ∀ name, S name ↔ T name) : m.Computes T :=
  fun a ha name => (h a ha name).trans (hST name)

theorem pure (a : α) : (Pure.pure a : Meaning α).Computes fun _ => False := by
  intro _ _ name
  simp [Pure.pure, Keyed.names]

theorem demand (r : Except Error α) : (Meaning.demand r).Computes fun _ => False := by
  intro _ _ name
  simp [Meaning.demand, Keyed.names]

theorem fail (e : Error) : (Meaning.fail e : Meaning α).Computes S := by
  intro a ha
  cases ha

theorem bind {g : α → Meaning β} (h : m.Computes S)
    (hg : ∀ a, m.result = .ok a → (g a).Computes T) :
    (m >>= g).Computes fun name => S name ∨ T name := by
  intro b hb name
  show _ ↔ S name ∨ T name
  obtain ⟨a, ha, hb⟩ := result_bind.1 hb
  have heffects : (m >>= g).effects = m.effects ++ (g a).effects := by simp only [Bind.bind, ha]
  rw [heffects, ← h a ha name, ← hg a ha b hb name]
  simp [Keyed.names]

theorem bind_last {g : α → Meaning β} (h : m.Computes S)
    (hg : ∀ a, m.result = .ok a → (g a).Computes fun _ => False) : (m >>= g).Computes S :=
  (h.bind hg).congr (by simp)

theorem bind_first {g : α → Meaning β} (h : m.Computes fun _ => False)
    (hg : ∀ a, m.result = .ok a → (g a).Computes S) : (m >>= g).Computes S :=
  (h.bind hg).congr (by simp)

theorem resolve (ρ : Naming) (site : Site) : (Meaning.resolve ρ site).Computes fun _ => False := by
  intro _ _ name
  unfold Meaning.resolve
  split <;> simp [Meaning.fail, Meaning.demand, Keyed.names]

theorem meet (columns : List String) : (Meaning.meet columns).Computes fun _ => False := by
  intro _ _ name
  simp [Meaning.meet, Keyed.names]

theorem compute {m : Meaning String} (h : m.Computes S) (column : Column) :
    (Meaning.compute column m).Computes fun name => S name ∨ column.name = name := by
  refine h.bind fun sql _ => ?_
  intro _ _ name
  simp [Keyed.names, eq_comm]

theorem ownColumns (m : Meaning α) : m.ownColumns.Computes fun _ => False := by
  intro _ _ name
  simp [Meaning.ownColumns, Keyed.names]

theorem ownScope (h : m.Computes S) : m.ownScope.Computes S := by
  intro a ha
  cases hm : m.result with
  | error e => simp [Meaning.ownScope, hm, Except.map] at ha
  | ok b => exact h b hm

theorem exists_item_cons {γ : Type} {S : γ → Position → Prop} {a : γ} {as : List γ} {p : Position}
    {j : Nat} :
    (∃ (i : Nat) (b : γ), (a :: as)[i]? = some b ∧ S b ((j + i) :: p)) ↔
      S a (j :: p) ∨ ∃ (i : Nat) (b : γ), as[i]? = some b ∧ S b ((j + 1 + i) :: p) := by
  constructor
  · rintro ⟨i, b, hb, hs⟩
    cases i with
    | zero =>
      obtain rfl : a = b := by simpa using hb
      exact .inl hs
    | succ i => exact .inr ⟨i, b, hb, by rwa [Nat.add_right_comm, Nat.add_assoc]⟩
  · rintro (hs | ⟨i, b, hb, hs⟩)
    · exact ⟨0, a, rfl, hs⟩
    · exact ⟨i + 1, b, hb, by rwa [← Nat.add_assoc, Nat.add_right_comm]⟩

theorem list {γ : Type} {x : γ → Position → Meaning α} {S : γ → Position → String → Prop}
    {as : List γ} (h : ∀ a ∈ as, ∀ q, (x a q).Computes (S a q)) (p : Position) (j : Nat) :
    (Meaning.list p j (as.map x)).Computes fun name =>
      ∃ (i : Nat) (a : γ), as[i]? = some a ∧ S a ((j + i) :: p) name := by
  induction as generalizing j with
  | nil => exact (pure _).congr (by simp)
  | cons a as ih =>
    rw [List.forall_mem_cons] at h
    rw [List.map_cons, Meaning.list]
    refine congr ((h.1 (j :: p)).bind fun _ _ => (ih h.2 (j + 1)).bind_last fun _ _ => pure _) ?_
    exact fun name => (exists_item_cons (S := fun a q => S a q name)).symm

theorem groups {calls : CallGroup → AnalyticScope → Position → Meaning (List String)}
    {S : CallGroup → Position → String → Prop} {gs : List CallGroup}
    (h : ∀ g ∈ gs, ∀ inner q, (calls g inner q).Computes (S g q)) (p : Position) (j : Nat)
    (scope : AnalyticScope) :
    (Meaning.groups p j scope (gs.map fun g => (g, calls g))).Computes fun name =>
      ∃ (i : Nat) (g : CallGroup), gs[i]? = some g ∧ S g ((j + i) :: p) name := by
  induction gs generalizing j scope with
  | nil => exact (pure _).congr (by simp)
  | cons g gs ih =>
    rw [List.forall_mem_cons] at h
    rw [List.map_cons, Meaning.groups]
    refine congr (bind_first (meet _) fun _ _ => (h.1 _ (j :: p)).bind fun _ _ =>
      ih h.2 (j + 1) _) ?_
    exact fun name => (exists_item_cons (S := fun a q => S a q name)).symm

end Computes
end Meaning

section
variable {settings : Settings} {ρ : Naming} {scope : Option AnalyticScope} {p : Position}

theorem calleeMeaning_result {function : String} {catalog : Catalog} {type : SqlType}
    {callee : Callee}
    (h : (calleeMeaning settings ρ p function catalog type).result = .ok callee) :
    (∃ name, callee = .named name ∧
        ((catalog.builtin? function).isNone && ρ.inlines settings p) = false) ∨
      ∃ name body, callee = .inlined name body ∧
        ((catalog.builtin? function).isNone && ρ.inlines settings p) = true := by
  unfold calleeMeaning at h
  split at h
  · rename_i bare hbare
    cases h
    exact .inl ⟨_, rfl, by simp [hbare]⟩
  · rename_i hbare
    obtain ⟨name, hname, hcallee⟩ := Meaning.result_bind.1 h
    rw [Meaning.resolve_result] at hname
    cases hcallee
    unfold Settings.userCallee Naming.inlines
    cases hbody : settings.registry.find? name with
    | none => exact .inl ⟨name, rfl, by simp [hname, hbody]⟩
    | some body => exact .inr ⟨name, body, rfl, by simp [hbare, hname, hbody]⟩

theorem Meaning.Computes.callee {function : String} {catalog : Catalog} {type : SqlType} :
    (calleeMeaning settings ρ p function catalog type).Computes fun _ => False := by
  unfold calleeMeaning
  split
  · exact .pure _
  · exact .bind_last (.resolve _ _) fun _ _ => .pure _

theorem Meaning.Computes.scan {m : Meaning String} {n : Node} {S : String → Prop}
    (h : m.Computes S) (hscan : n.isProjection = false)
    (hrendered : ∀ inlined k, n.leavesOut inlined k = false)
    (hS : ∀ name, S name ↔ (∃ c ∈ n.ownColumns, c.column.name = name) ∨
      ∃ c q, n.Part p c q ∧ c.Leaves settings ρ q name) :
    m.Computes (n.Leaves settings ρ p) := by
  refine h.congr fun name => ?_
  rw [hS, Node.leaves_iff]
  simp [hscan, hrendered]

theorem Meaning.Computes.parts {m : Meaning String} {n : Node} {S : String → Prop}
    (h : m.Computes S) (hscan : n.isProjection = false) (hown : n.ownColumns = [])
    (hrendered : ∀ inlined k, n.leavesOut inlined k = false)
    (hS : ∀ name, S name ↔ ∃ c q, n.Part p c q ∧ c.Leaves settings ρ q name) :
    m.Computes (n.Leaves settings ρ p) :=
  h.scan hscan hrendered fun name => by simp [hS, hown]

theorem Position.exists_item_and {R : Node → Position → Prop} {ns : List Node} :
    (∃ c q, Position.Item p ns c q ∧ R c q) ↔
      ∃ (i : Nat) (c : Node), ns[i]? = some c ∧ R c (i :: p) := by
  constructor
  · rintro ⟨c, q, ⟨i, hi, rfl⟩, h⟩
    exact ⟨i, c, hi, h⟩
  · rintro ⟨i, c, hi, h⟩
    exact ⟨c, _, ⟨i, hi, rfl⟩, h⟩

theorem Position.exists_item_map_and {γ : Type} {f : γ → Node} {R : Node → Position → Prop}
    {as : List γ} :
    (∃ c q, Position.Item p (as.map f) c q ∧ R c q) ↔
      ∃ (i : Nat) (a : γ), as[i]? = some a ∧ R (f a) (i :: p) := by
  rw [Position.exists_item_and]
  simp only [List.getElem?_map, Option.map_eq_some_iff]
  constructor
  · rintro ⟨i, c, ⟨a, ha, rfl⟩, h⟩
    exact ⟨i, a, ha, h⟩
  · rintro ⟨i, a, ha, h⟩
    exact ⟨i, _, ⟨a, ha, rfl⟩, h⟩

theorem Position.exists_at {R : Node → Position → Prop} {m : Node} {r : Position} :
    (∃ c q, (c = m ∧ q = r) ∧ R c q) ↔ R m r := by
  constructor
  · rintro ⟨c, q, ⟨rfl, rfl⟩, h⟩
    exact h
  · exact fun h => ⟨m, r, ⟨rfl, rfl⟩, h⟩

def Node.LeavesBelow (settings : Settings) (ρ : Naming) (n : Node) : Prop :=
  ∀ c ∈ n.children, ∀ scope q, (c.meaning settings ρ scope q).Computes (c.Leaves settings ρ q)

theorem Node.computes_call {function : String} {arguments : List Node} {type : SqlType}
    (h : (Node.call function arguments type).LeavesBelow settings ρ) :
    ((Node.call function arguments type).meaning settings ρ scope p).Computes
      ((Node.call function arguments type).Leaves settings ρ p) := by
  rw [Node.meaning]
  refine .parts (.bind_last (.list (fun e he q => h e he scope q) _ _) fun args _ =>
    .bind_last .callee fun callee _ => ?_) rfl rfl (fun _ _ => rfl) fun name => ?_
  · split
    · exact .demand _
    · exact .pure _
  · simp [Node.Part, Position.exists_item_and, Node.children]

theorem Node.computes_aggregateCall {function : String} {arguments : List Node} {type : SqlType}
    {distinct : Bool} {orderBy : List OrderItem} {limit : Option Node}
    (h : (Node.aggregateCall function arguments type distinct orderBy limit).LeavesBelow
      settings ρ) :
    ((Node.aggregateCall function arguments type distinct orderBy limit).meaning settings ρ scope
      p).Computes
      ((Node.aggregateCall function arguments type distinct orderBy limit).Leaves settings ρ
        p) := by
  let inlined := (Catalog.aggregate.builtin? function).isNone && ρ.inlines settings p
  have hargument (e : Node) (he : e ∈ arguments) (q : Position) :=
    h e (List.mem_append_left _ he) scope q
  have hlimit (e : Node) (he : limit = some e) := h e (by simp [Node.children, he]) scope (1 :: p)
  rw [Node.meaning]
  refine .congr (.bind (T := fun name => inlined = false ∧
    ∃ e, limit = some e ∧ e.Leaves settings ρ (1 :: p) name) (.list hargument _ _) fun args _ =>
      .bind_first .callee fun callee hcallee => ?_) fun name => ?_
  · rcases calleeMeaning_result hcallee with ⟨name, rfl, hnamed⟩ | ⟨name, body, rfl, hinlined⟩
    · refine .bind_last ?_ fun _ _ => .pure _
      cases limit with
      | none => exact .congr (.pure _) (by simp)
      | some e =>
        exact .congr (.bind_last (hlimit e rfl) fun _ _ => .pure _) (by simp [inlined, hnamed])
    · exact .congr (.demand _) (by simp [inlined, hinlined])
  · constructor
    · rintro (⟨i, c, hc, hleaves⟩ | ⟨hnamed, e, he, hleaves⟩)
      · rw [Nat.zero_add] at hleaves
        exact .part rfl (.inl ⟨i, hc, rfl⟩) (fun k hk => by simp at hk) hleaves
      · refine .part rfl (.inr ⟨he, rfl⟩) (fun k hk => ?_) hleaves
        cases hk
        exact hnamed
    · intro hleaves
      cases hleaves with
      | own hc => cases hc
      | part _ hc hrendered hleaves =>
        rcases hc with ⟨i, hi, rfl⟩ | ⟨he, rfl⟩
        · exact .inl ⟨i, _, hi, by rwa [Nat.zero_add]⟩
        · exact .inr ⟨hrendered 1 rfl, _, he, hleaves⟩

theorem Boundary.computes {edge : String} {o : Option Boundary} {q : Position} :
    (∀ c ∈ (o.bind (·.offset)).toList,
      (c.meaning settings ρ scope q).Computes (c.Leaves settings ρ q)) →
    (match o with
      | none => pure []
      | some ⟨code, offset⟩ => Boundary.meaning settings edge code (match offset with
        | none => pure ""
        | some e => e.meaning settings ρ scope q) : Meaning (List String)).Computes fun name =>
      ∃ b c, o = some b ∧ b.hasNoOffset = false ∧ b.offset = some c ∧
        c.Leaves settings ρ q name := by
  intro h
  cases o with
  | none => exact .congr (.pure _) (by simp)
  | some b =>
    obtain ⟨code, offset⟩ := b
    refine .bind_first (.demand _) fun kind hkind => ?_
    have hkind : BoundaryKind.ofCode code = .ok kind := hkind
    split
    · rename_i hoffset
      refine .bind_last (S := _) ?_ fun sql _ => ?_
      · cases offset with
        | none => exact .congr (.pure _) (by simp)
        | some c =>
          exact .congr (h c (by simp)) (by simp [Boundary.hasNoOffset, hkind, hoffset])
      · split
        · exact .fail _
        · exact .pure _
    · rename_i hoffset
      exact .congr (.pure _) (by simp [Boundary.hasNoOffset, hkind, hoffset])

theorem Node.computes_analyticCall {function : String} {arguments : List Node} {type : SqlType}
    {distinct : Bool} {frame : Option Frame}
    (h : (Node.analyticCall function arguments type distinct frame).LeavesBelow settings ρ) :
    ((Node.analyticCall function arguments type distinct frame).meaning settings ρ scope
      p).Computes
      ((Node.analyticCall function arguments type distinct frame).Leaves settings ρ p) := by
  let inlined := (Catalog.window.builtin? function).isNone && ρ.inlines settings p
  have hargument (e : Node) (he : e ∈ arguments) (scope) (q : Position) :=
    h e (List.mem_append_left _ he) scope q
  rw [Node.meaning.eq_def]
  cases scope with
  | none => exact .fail _
  | some around =>
    refine .congr (.bind (T := fun name => inlined = false ∧
      ((∃ f b c, frame = some f ∧ f.first = some b ∧ b.hasNoOffset = false ∧ b.offset = some c ∧
          c.Leaves settings ρ (1 :: p) name) ∨
        ∃ f b c, frame = some f ∧ f.last = some b ∧ b.hasNoOffset = false ∧ b.offset = some c ∧
          c.Leaves settings ρ (2 :: p) name))
      (.list (fun e he q => .bind_last (hargument e he (some around) q) fun _ _ =>
        .bind_last (.meet _) fun _ _ => .pure _) _ _) fun args _ => ?_) fun name => ?_
    · dsimp only
      split
      · exact .fail _
      · refine .bind_first .callee fun callee hcallee => ?_
        rcases calleeMeaning_result hcallee with ⟨name, rfl, hnamed⟩ | ⟨name, body, rfl, hinlined⟩
        · refine .bind_last ?_ fun _ _ => .pure _
          cases frame with
          | none => exact .congr (.pure _) (by simp)
          | some f =>
            obtain ⟨unit, first, last⟩ := f
            refine .congr (.bind_first (.demand _) fun _ _ =>
              .bind (Boundary.computes fun c hc => ?_) fun _ _ =>
                .bind_last (Boundary.computes fun c hc => ?_) fun _ _ => .pure _) fun name => ?_
            · exact h c (List.mem_append_right _ (List.mem_append_left _ hc)) _ _
            · exact h c (List.mem_append_right _ (List.mem_append_right _ hc)) _ _
            · simp [inlined, hnamed]
        · exact .congr (.demand _) (by simp [inlined, hinlined])
    · constructor
      · rintro (⟨i, c, hc, hleaves⟩ | ⟨hnamed, ⟨f, b, c, rfl, hb, hkind, hc, hleaves⟩ |
          ⟨f, b, c, rfl, hb, hkind, hc, hleaves⟩⟩)
        · rw [Nat.zero_add] at hleaves
          exact .part rfl (.inl ⟨i, hc, rfl⟩) (fun k hk => by simp at hk) hleaves
        · refine .part rfl (.inr (.inl ⟨f, b, rfl, hb, hc, rfl⟩)) (fun k hk => ?_) hleaves
          cases hk
          simp_all [Node.leavesOut, Node.isInlined, inlined]
        · refine .part rfl (.inr (.inr ⟨f, b, rfl, hb, hc, rfl⟩)) (fun k hk => ?_) hleaves
          cases hk
          simp_all [Node.leavesOut, Node.isInlined, inlined]
      · intro hleaves
        cases hleaves with
        | own hc => cases hc
        | part _ hc hrendered hleaves =>
          rcases hc with ⟨i, hi, rfl⟩ | ⟨f, b, rfl, hb, hc, rfl⟩ | ⟨f, b, rfl, hb, hc, rfl⟩
          · exact .inl ⟨i, _, hi, by rwa [Nat.zero_add]⟩
          · have h1 := hrendered 1 rfl
            simp [Node.leavesOut, hb] at h1
            exact .inr ⟨h1.1, .inl ⟨f, b, _, rfl, hb, h1.2, hc, hleaves⟩⟩
          · have h2 := hrendered 2 rfl
            simp [Node.leavesOut, hb] at h2
            exact .inr ⟨h2.1, .inr ⟨f, b, _, rfl, hb, h2.2, hc, hleaves⟩⟩

theorem Node.computes_insertStmt {table : String} {columns : List Column} {rows : List (List Node)}
    {query : Option Node}
    (h : (Node.insertStmt table columns rows query).LeavesBelow settings ρ) :
    ((Node.insertStmt table columns rows query).meaning settings ρ scope p).Computes
      ((Node.insertStmt table columns rows query).Leaves settings ρ p) := by
  have hfirst {S : String → Prop} {g : String → Meaning String} (hg : ∀ name, (g name).Computes S) :
      (Meaning.resolve ρ ⟨.table, p⟩ >>= g).Computes S := .bind_first (.resolve _ _) fun _ _ => hg _
  have hrow (row : List Node) (hrow : row ∈ rows) (q : Position) :
      (rowMeaning columns.length (q.headD 0) row.length
        (Meaning.list q 0 (row.map fun e q => e.meaning settings ρ scope q))).Computes fun name =>
        ∃ (i : Nat) (c : Node), row[i]? = some c ∧ c.Leaves settings ρ (i :: q) name := by
    unfold rowMeaning
    split
    · exact .fail _
    · refine .bind_last (.congr (.list (fun e he q => h e ?_ scope q) _ _) (by simp))
        fun _ _ => .pure _
      simp only [Node.children, List.mem_append, List.mem_flatten]
      exact .inl ⟨row, hrow, he⟩
  rw [Node.meaning.eq_def]
  cases query with
  | some e =>
    cases rows with
    | cons row rows => exact hfirst fun _ => .fail _
    | nil =>
      exact .parts
        (hfirst fun _ => .bind_last (h e (by simp [Node.children]) _ _) fun _ _ => .pure _)
        rfl rfl (fun _ _ => rfl) (by simp [Node.Part, and_assoc])
  | none =>
    cases rows with
    | nil => exact hfirst fun _ => .fail _
    | cons row rows =>
      refine .parts (hfirst fun _ => .bind_last (.list hrow _ _) fun _ _ => .pure _) rfl rfl
        (fun _ _ => rfl) fun name => ?_
      constructor
      · rintro ⟨i, row', hrow', k, c, hc, hleaves⟩
        rw [Nat.zero_add] at hleaves
        exact ⟨c, _, .inl ⟨i, row', hrow', k, hc, rfl⟩, hleaves⟩
      · rintro ⟨c, q, ⟨i, row', hrow', k, hc, rfl⟩ | ⟨hquery, -⟩, hleaves⟩
        · exact ⟨i, row', hrow', k, c, hc, by rwa [Nat.zero_add]⟩
        · cases hquery

theorem Meaning.Computes.columns {cs : List ComputedColumn} {inner : Option AnalyticScope}
    (h : ∀ c ∈ cs, ∀ q, (c.expr.meaning settings ρ inner q).Computes (c.expr.Leaves settings ρ q))
    (p : Position) :
    (Meaning.list p 0 (cs.map fun c q =>
      Meaning.compute c.column (c.expr.meaning settings ρ inner q))).Computes fun name =>
      (∃ (i : Nat) (c : ComputedColumn), cs[i]? = some c ∧ c.expr.Leaves settings ρ (i :: p) name) ∨
        ∃ c ∈ cs, c.column.name = name := by
  refine .congr (.list (fun c hc q => .compute (h c hc q) c.column) p 0) fun name => ?_
  simp only [Nat.zero_add, and_or_left, exists_or, List.mem_iff_getElem?]
  refine or_congr Iff.rfl ?_
  rw [exists_comm]
  simp

theorem Node.computes_arrayScan {input : Option Node} {array : Node} {element : Column}
    (h : (Node.arrayScan input array element).LeavesBelow settings ρ) :
    ((Node.arrayScan input array element).meaning settings ρ scope p).Computes
      ((Node.arrayScan input array element).Leaves settings ρ p) := by
  cases input with
  | some input =>
    rw [Node.meaning]
    exact .fail _
  | none =>
    rw [Node.meaning]
    exact .parts (.bind_last (h array (by simp [Node.children]) _ _) fun _ _ => .pure _)
      rfl rfl (fun _ _ => rfl) (by simp [Node.Part, and_assoc])

theorem Node.computes_projectScan {columns : List Column} {computed : List ComputedColumn}
    {input : Node} : ((Node.projectScan columns computed input).meaning settings ρ scope p).Computes
      ((Node.projectScan columns computed input).Leaves settings ρ p) := by
  rw [Node.meaning]
  refine .congr (.bind_first (.ownColumns _) fun own _ => .bind_first (.ownColumns _)
    fun below _ => .pure _) fun name => ?_
  rw [Node.leaves_iff]
  simp [Node.ownColumns, Node.isProjection]

theorem Node.computes_aggregateScan {columns : List Column} {input : Node}
    {keys aggregates : List ComputedColumn}
    (h : (Node.aggregateScan columns input keys aggregates).LeavesBelow settings ρ) :
    ((Node.aggregateScan columns input keys aggregates).meaning settings ρ scope p).Computes
      ((Node.aggregateScan columns input keys aggregates).Leaves settings ρ p) := by
  have hcolumns {cs : List ComputedColumn} {r : Position}
      (hcs : ∀ c ∈ cs, c.expr ∈ (Node.aggregateScan columns input keys aggregates).children) :=
    Meaning.Computes.columns (fun c hc q => h c.expr (hcs c hc) scope q) r
  rw [Node.meaning]
  refine .scan (.bind (hcolumns fun c hc => ?_) fun _ _ => .bind (hcolumns fun c hc => ?_)
    fun _ _ => .bind_last (h input (by simp [Node.children]) _ _) fun _ _ => .pure _) rfl
    (fun _ _ => rfl) fun name => ?_
  · simp only [Node.children, List.mem_append, List.mem_map]
    exact .inl (.inl ⟨c, hc, rfl⟩)
  · simp only [Node.children, List.mem_append, List.mem_map]
    exact .inl (.inr ⟨c, hc, rfl⟩)
  · simp only [Node.ownColumns, Node.Part, List.mem_append, or_and_right, exists_or,
      Position.exists_item_map_and, Position.exists_at]
    grind

theorem Node.computes_setOperation {code : Int32} {branches : List SetBranch}
    (h : (Node.setOperation code branches).LeavesBelow settings ρ) :
    ((Node.setOperation code branches).meaning settings ρ scope p).Computes
      ((Node.setOperation code branches).Leaves settings ρ p) := by
  rw [Node.meaning]
  refine .parts (.bind_first (.demand _) fun _ _ => .bind_last (.list (fun b hb q =>
    h b.scan (List.mem_map_of_mem hb) scope q) _ _) fun _ _ => .pure _) rfl rfl
    (fun _ _ => rfl) fun name => ?_
  simp [Node.Part, Position.exists_item_map_and]

theorem Node.computes_limitScan {input limit : Node} {offset : Option Node}
    (h : (Node.limitScan input limit offset).LeavesBelow settings ρ) :
    ((Node.limitScan input limit offset).meaning settings ρ scope p).Computes
      ((Node.limitScan input limit offset).Leaves settings ρ p) := by
  rw [Node.meaning.eq_def]
  cases offset with
  | none =>
    exact .parts (.bind (h input (by simp [Node.children]) _ _) fun _ _ =>
      .bind_last (h limit (by simp [Node.children]) _ _) fun _ _ => .pure _)
      rfl rfl (fun _ _ => rfl) (by simp [Node.Part, or_and_right, exists_or, and_assoc])
  | some e =>
    exact .parts (.bind (h input (by simp [Node.children]) _ _) fun _ _ =>
      .bind (h limit (by simp [Node.children]) _ _) fun _ _ =>
        .bind_last (h e (by simp [Node.children]) _ _) fun _ _ => .pure _)
      rfl rfl (fun _ _ => rfl) (by simp [Node.Part, or_and_right, exists_or, and_assoc])

theorem Node.computes_withScan {entries : List NamedQuery} {query : Node} {recursive : Bool}
    (h : (Node.withScan entries query recursive).LeavesBelow settings ρ) :
    ((Node.withScan entries query recursive).meaning settings ρ scope p).Computes
      ((Node.withScan entries query recursive).Leaves settings ρ p) := by
  rw [Node.meaning]
  split
  · exact .fail _
  · have hentry (e : NamedQuery) (he : e ∈ entries) :
        e.query ∈ (Node.withScan entries query recursive).children :=
      List.mem_append_left _ (List.mem_map_of_mem he)
    refine .parts (.bind (.list (fun e he q => .bind_last (h e.query (hentry e he) scope q)
      fun _ _ => .pure _) _ _) fun _ _ =>
        .bind_last (h query (by simp [Node.children]) _ _) fun _ _ => .pure _)
      rfl rfl (fun _ _ => rfl) fun name => ?_
    simp [Node.Part, or_and_right, exists_or, and_assoc, Position.exists_item_map_and]

theorem Node.computes_analyticScan {columns : List Column} {input : Node} {groups : List CallGroup}
    (h : (Node.analyticScan columns input groups).LeavesBelow settings ρ) :
    ((Node.analyticScan columns input groups).meaning settings ρ scope p).Computes
      ((Node.analyticScan columns input groups).Leaves settings ρ p) := by
  have hcall (g : CallGroup) (hg : g ∈ groups) (c : ComputedColumn) (hc : c ∈ g.calls) :
      c.expr ∈ (Node.analyticScan columns input groups).children :=
    List.mem_cons_of_mem _ (List.mem_flatMap.2 ⟨g, hg, List.mem_map_of_mem hc⟩)
  rw [Node.meaning]
  have hcalls (g : CallGroup) (hg : g ∈ groups) (inner : AnalyticScope) (q : Position) :
      (Meaning.list q 0 (g.calls.map fun c q =>
        Meaning.compute c.column (c.expr.meaning settings ρ (some inner) q))).Computes _ :=
    .columns (fun c hc q => h c.expr (hcall g hg c hc) (some inner) q) q
  refine .scan (.bind (h input (by simp [Node.children]) _ _) fun _ _ =>
    .bind_last (.ownScope (.groups hcalls _ _ _)) fun _ _ => .pure _) rfl (fun _ _ => rfl)
    fun name => ?_
  constructor
  · rintro (hleaves | ⟨i, g, hg, ⟨k, c, hc, hleaves⟩ | ⟨c, hc, hname⟩⟩)
    · exact .inr ⟨input, _, .inl ⟨rfl, rfl⟩, hleaves⟩
    · rw [Nat.zero_add] at hleaves
      exact .inr ⟨c.expr, _, .inr ⟨i, g, hg, k, by simp [hc], rfl⟩, hleaves⟩
    · exact .inl ⟨c, List.mem_flatMap.2 ⟨g, List.mem_of_getElem? hg, hc⟩, hname⟩
  · rintro (⟨c, hc, hname⟩ | ⟨c, q, ⟨rfl, rfl⟩ | ⟨i, g, hg, hitem⟩, hleaves⟩)
    · obtain ⟨g, hg, hc⟩ := List.mem_flatMap.1 hc
      obtain ⟨i, hi⟩ := List.mem_iff_getElem?.1 hg
      exact .inr ⟨i, g, hi, .inr ⟨c, hc, hname⟩⟩
    · exact .inl hleaves
    · obtain ⟨k, d, hd, hleaves⟩ := Position.exists_item_map_and
        (R := fun c q => c.Leaves settings ρ q name) |>.1 ⟨c, q, hitem, hleaves⟩
      exact .inr ⟨i, g, hg, .inl ⟨k, d, hd, by rwa [Nat.zero_add]⟩⟩

theorem Node.computes_deleteStmt {table : String} {condition : Option Node}
    (h : (Node.deleteStmt table condition).LeavesBelow settings ρ) :
    ((Node.deleteStmt table condition).meaning settings ρ scope p).Computes
      ((Node.deleteStmt table condition).Leaves settings ρ p) := by
  rw [Node.meaning.eq_def]
  cases condition with
  | none =>
    exact .parts (.bind_first (.resolve _ _) fun _ _ => .pure _) rfl rfl (fun _ _ => rfl)
      (by simp [Node.Part])
  | some e =>
    exact .parts (.bind_first (.resolve _ _) fun _ _ =>
      .bind_last (h e (by simp [Node.children]) _ _) fun _ _ => .pure _) rfl rfl (fun _ _ => rfl)
      (by simp [Node.Part, and_assoc])

theorem Node.computes_updateStmt {table : String} {assignments : List Assignment}
    {condition : Option Node}
    (h : (Node.updateStmt table assignments condition).LeavesBelow settings ρ) :
    ((Node.updateStmt table assignments condition).meaning settings ρ scope p).Computes
      ((Node.updateStmt table assignments condition).Leaves settings ρ p) := by
  rw [Node.meaning.eq_def]
  refine .parts (S := fun name => (∃ (i : Nat) (a : Assignment), assignments[i]? = some a ∧
      a.value.Leaves settings ρ (i :: 0 :: p) name) ∨
      ∃ e, condition = some e ∧ e.Leaves settings ρ (1 :: p) name)
    (.bind_first (.resolve _ _) fun _ _ => ?_) rfl rfl (fun _ _ => rfl) fun name => ?_
  · split
    · exact .fail _
    · have hvalue (a : Assignment) (ha : a ∈ assignments) :
          a.value ∈ (Node.updateStmt table assignments condition).children :=
        List.mem_append_left _ (List.mem_map_of_mem ha)
      refine .bind (.congr (.list (fun a ha q => .bind_last (h a.value (hvalue a ha) scope q)
        fun _ _ => .pure _) _ _) (by simp)) fun _ _ => .bind_last ?_ fun _ _ => .pure _
      cases condition with
      | none => exact .congr (.pure _) (by simp)
      | some e => exact .congr (h e (by simp [Node.children]) _ _) (by simp)
  · simp [Node.Part, or_and_right, exists_or, and_assoc, Position.exists_item_map_and]

theorem Node.computes_step {n : Node} (h : n.LeavesBelow settings ρ) :
    (n.meaning settings ρ scope p).Computes (n.Leaves settings ρ p) := by
  cases n with
  | literal value type =>
    rw [Node.meaning]
    exact .parts (.demand _) rfl rfl (fun _ _ => rfl) (by simp [Node.Part])
  | parameter _ _ _ | columnRef _ | argumentRef _ _ | columnDefault | singleRow | withRef _ =>
    rw [Node.meaning]
    exact .parts (.pure _) rfl rfl (fun _ _ => rfl) (by simp [Node.Part])
  | call => exact computes_call h
  | aggregateCall => exact computes_aggregateCall h
  | analyticCall => exact computes_analyticCall h
  | structField part _ _ | subquery _ part _ | orderByScan part _ =>
    rw [Node.meaning]
    exact .parts (.bind_last (h part (by simp [Node.children]) _ _) fun _ _ => .pure _)
      rfl rfl (fun _ _ => rfl) (by simp [Node.Part, and_assoc])
  | tableScan table columns =>
    rw [Node.meaning]
    exact .parts (.bind_last (.resolve _ _) fun _ _ => .pure _) rfl rfl (fun _ _ => rfl)
      (by simp [Node.Part])
  | arrayScan => exact computes_arrayScan h
  | filterScan input condition =>
    rw [Node.meaning]
    exact .parts (.bind (h input (by simp [Node.children]) _ _) fun _ _ =>
      .bind_last (h condition (by simp [Node.children]) _ _) fun _ _ => .pure _)
      rfl rfl (fun _ _ => rfl) (by simp [Node.Part, or_and_right, exists_or, and_assoc])
  | projectScan => exact computes_projectScan
  | aggregateScan => exact computes_aggregateScan h
  | setOperation => exact computes_setOperation h
  | limitScan => exact computes_limitScan h
  | withScan => exact computes_withScan h
  | analyticScan => exact computes_analyticScan h
  | queryStmt columns query =>
    rw [meaning_queryStmt]
    exact .parts (h query (by simp [Node.children]) _ _) rfl rfl (fun _ _ => rfl)
      (by simp [Node.Part, and_assoc])
  | insertStmt => exact computes_insertStmt h
  | deleteStmt => exact computes_deleteStmt h
  | updateStmt => exact computes_updateStmt h
  | unsupported kind =>
    rw [Node.meaning]
    exact .fail _
end

/-- The columns that rendering a tree computes are those that it leaves. -/
theorem Node.meaning_computes (settings : Settings) (ρ : Naming) (n : Node)
    (scope : Option AnalyticScope) (p : Position) :
    (n.meaning settings ρ scope p).Computes (n.Leaves settings ρ p) := by
  induction n using Node.induction generalizing scope p with
  | step n ih => exact Node.computes_step ih

/-- The names that the paths left to a cursor give to sites; any other site has none. -/
def Cursor.naming (c : Cursor) (sites : List Site) : Naming where
  reference site :=
    if site ∈ sites then c.nameAt (c.index + sites.idxOf site)
    else .error (.namePathsExhausted (c.index + sites.length) c.paths.length)

theorem Cursor.naming_agrees (c : Cursor) {sites : List Site} (h : sites.Nodup) :
    (c.naming sites).Agrees c c.index sites := by
  intro k site hk
  obtain ⟨hlt, rfl⟩ := List.getElem?_eq_some_iff.1 hk
  simp only [Cursor.naming, List.getElem_mem, if_true]
  rw [h.idxOf_getElem]

/-- The names of the references in a tree that is rendered from the state. -/
def State.naming (s : State) (settings : Settings) (n : Node) : Naming :=
  s.cursor.naming (n.route (settings.inlines s.cursor) [] s.cursor.index)

namespace Node

theorem run_eq_finish (n : Node) (s : State) (settings : Settings) :
    ∃ log, n.render.run settings s =
      (n.meaning settings (s.naming settings n) (s.analytic.map AnalyticScope.bare) []).finish
        s log := by
  have hagrees : (s.naming settings n).Agrees s.cursor s.cursor.index
      (n.route (settings.inlines s.cursor) [] s.cursor.index) :=
    s.cursor.naming_agrees (n.route_nodup _ _ _)
  exact (n.realizes rfl _ [] s s.cursor.index s.cursor.seek_index.symm s.cursor.index_le rfl
    hagrees).1

/-- From no pending columns, a rendering that succeeds leaves those of the scans in the tree that
have no projection around them. -/
theorem mem_pending_after {n : Node} {settings : Settings} {s final : State} {sql : String}
    (hempty : s.pending = ∅) (h : n.render.run settings s = .ok sql final) (name : String) :
    name ∈ Keyed.names final.pending.entries ↔
      n.Leaves settings (s.naming settings n) [] name := by
  obtain ⟨log, hrun⟩ := n.run_eq_finish s settings
  have hcomputes := n.meaning_computes settings (s.naming settings n)
    (s.analytic.map AnalyticScope.bare) []
  have hfinish := hrun.symm.trans h
  unfold Meaning.finish at hfinish
  split at hfinish
  · rename_i text htext
    obtain ⟨-, rfl⟩ := EStateM.Result.ok.inj hfinish
    rw [← hcomputes text htext name]
    simp only [State.after, hempty, Keyed.mem_names_insertAll]
    exact or_iff_left (List.not_mem_nil (a := name))
  · cases hfinish

/-- Rendering the first node puts parentheses around the second one: always if it is an analytic
scan, for a whole query if it is an aggregate scan. -/
inductive Derives : Node → Node → Prop
  | analytic (columns : List Column) (input : Node) (groups : List CallGroup) :
    Derives (.analyticScan columns input groups) input
  | aggregate (columns : List Column) (input : Node) (keys aggregates : List ComputedColumn) :
    Derives (.aggregateScan columns input keys aggregates) input

theorem Derives.leaves_iff {n input : Node} (h : n.Derives input) {settings : Settings}
    {ρ : Naming} {p : Position} {name : String} :
    n.Leaves settings ρ p name ↔ name ∈ n.ownColumns.map (·.column.name) ∨
      ∃ c q, n.Part p c q ∧ c.Leaves settings ρ q name := by
  rw [Node.leaves_iff, List.mem_map]
  cases h <;> simp [isProjection, leavesOut]

theorem Derives.part {n input : Node} (h : n.Derives input) (p : Position) :
    n.Part p input (0 :: p) := by
  cases h with
  | analytic => exact .inl ⟨rfl, rfl⟩
  | aggregate => exact .inr (.inr ⟨rfl, rfl⟩)

/-- Parentheses around the input of a scan do not keep its computed columns in. What is pending
after the scan is the columns of the scan itself and all that its parts leave, so all that its input
leaves. Only columns of the scan itself are pending if and only if its parts leave no others. -/
theorem pending_after_derivation (settings : Settings) (s final : State) (n input : Node)
    (sql : String) (hempty : s.pending = ∅)
    (hn : n.Derives input) (h : n.render.run settings s = .ok sql final) :
    (∀ name, name ∈ Keyed.names final.pending.entries ↔
      name ∈ n.ownColumns.map (·.column.name) ∨
        ∃ c q, n.Part [] c q ∧ c.Leaves settings (s.naming settings n) q name) ∧
    (∀ name, input.Leaves settings (s.naming settings n) [0] name →
      name ∈ Keyed.names final.pending.entries) ∧
    ((∀ name ∈ Keyed.names final.pending.entries, name ∈ n.ownColumns.map (·.column.name)) ↔
      ∀ c q name, n.Part [] c q → c.Leaves settings (s.naming settings n) q name →
        name ∈ n.ownColumns.map (·.column.name)) := by
  have hpending (name : String) := (mem_pending_after hempty h name).trans hn.leaves_iff
  refine ⟨hpending, fun name hleaves => ?_, fun hown c q name hc hleaves => ?_,
    fun hparts name hname => ?_⟩
  · exact (hpending name).2 (.inr ⟨input, [0], hn.part [], hleaves⟩)
  · exact hown name ((hpending name).2 (.inr ⟨c, q, hc, hleaves⟩))
  · rcases (hpending name).1 hname with hname | ⟨c, q, hc, hleaves⟩
    · exact hname
    · exact hparts c q name hc hleaves

def numberedCount : Node :=
  .analyticScan [] (.aggregateScan [] (.tableScan "t" []) []
    [⟨⟨"c", "", .scalar .int64⟩, .aggregateCall "count" [.columnRef ⟨"x", "t", .scalar .int64⟩]
      (.scalar .int64) false [] none⟩]) []

def oneTable : State := { cursor := .start [] [["t"]] }

/-- The count is pending outside of the parentheses, although the scan around has no column. -/
theorem numberedCount_leaves_count :
    ∃ final, numberedCount.render.run {} oneTable =
        .ok "FROM ( SELECT *, ROW_NUMBER() OVER() AS `rowid` FROM `t` )" final ∧
      Keyed.names final.pending.entries = ["c"] ∧ numberedCount.ownColumns = [] :=
  ⟨_, rfl, rfl, rfl⟩

theorem numberedCount_pending_after_derivation :
    ∃ final, numberedCount.render.run {} oneTable =
        .ok "FROM ( SELECT *, ROW_NUMBER() OVER() AS `rowid` FROM `t` )" final ∧
      ¬ ∀ c q name, numberedCount.Part [] c q →
        c.Leaves {} (oneTable.naming {} numberedCount) q name →
        name ∈ numberedCount.ownColumns.map (·.column.name) := by
  have hrun : numberedCount.render.run {} oneTable =
      .ok "FROM ( SELECT *, ROW_NUMBER() OVER() AS `rowid` FROM `t` )" _ := rfl
  obtain ⟨-, -, hiff⟩ := pending_after_derivation {} oneTable _ numberedCount _ _ rfl
    (.analytic ..) hrun
  exact ⟨_, hrun, fun hparts => absurd (hiff.2 hparts "c" (by decide)) (by decide)⟩

end Node
end ResolvedSql
