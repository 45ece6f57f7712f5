import ResolvedSql.Proofs.Rendering
/-!
The nodes of a tree by their positions, and which of them a rendering leaves out: the options of a
call whose function has a body, and the offset of a frame end that has none. If a tree has SQL, so
does every node of it that is not left out.
-/
set_option autoImplicit false

namespace ResolvedSql

open Text Render

/-- `c` stands at `q`, as an item of a list of parts at `p`. -/
def Position.Item (p : Position) (ns : List Node) (c : Node) (q : Position) : Prop :=
  ∃ i : Nat, ns[i]? = some c ∧ q = i :: p

def Position.GroupItem (p : Position) (groups : List CallGroup) (c : Node) (q : Position) : Prop :=
  ∃ (i : Nat) (g : CallGroup), groups[i]? = some g ∧
    Position.Item (i :: p) (g.calls.map (·.expr)) c q

/-- `c` stands at `q`, as a part of the node `n` at `p`. -/
def Node.Part (n : Node) (p : Position) (c : Node) (q : Position) : Prop :=
  match n with
  | .literal _ _ | .parameter _ _ _ | .columnRef _ | .argumentRef _ _ | .columnDefault | .singleRow
  | .tableScan _ _ | .withRef _ | .unsupported _ => False
  | .call _ arguments _ => Position.Item (0 :: p) arguments c q
  | .aggregateCall _ arguments _ _ _ limit =>
    Position.Item (0 :: p) arguments c q ∨ limit = some c ∧ q = 1 :: p
  | .analyticCall _ arguments _ _ frame =>
    Position.Item (0 :: p) arguments c q ∨
      (∃ f b, frame = some f ∧ f.first = some b ∧ b.offset = some c ∧ q = 1 :: p) ∨
      ∃ f b, frame = some f ∧ f.last = some b ∧ b.offset = some c ∧ q = 2 :: p
  | .structField operand _ _ => c = operand ∧ q = 0 :: p
  | .subquery _ query _ => c = query ∧ q = 0 :: p
  | .arrayScan input array _ => input = some c ∧ q = 0 :: p ∨ c = array ∧ q = 1 :: p
  | .filterScan input condition => c = input ∧ q = 0 :: p ∨ c = condition ∧ q = 1 :: p
  | .projectScan _ computed input =>
    Position.Item (0 :: p) (computed.map (·.expr)) c q ∨ c = input ∧ q = 1 :: p
  | .aggregateScan _ input keys aggregates =>
    Position.Item (2 :: p) (aggregates.map (·.expr)) c q ∨
      Position.Item (1 :: p) (keys.map (·.expr)) c q ∨ c = input ∧ q = 0 :: p
  | .setOperation _ branches => Position.Item (0 :: p) (branches.map (·.scan)) c q
  | .orderByScan input _ => c = input ∧ q = 0 :: p
  | .limitScan input limit offset =>
    c = input ∧ q = 0 :: p ∨ c = limit ∧ q = 1 :: p ∨ offset = some c ∧ q = 2 :: p
  | .withScan entries query _ =>
    Position.Item (0 :: p) (entries.map (·.query)) c q ∨ c = query ∧ q = 1 :: p
  | .analyticScan _ input groups =>
    c = input ∧ q = 0 :: p ∨ Position.GroupItem (1 :: p) groups c q
  | .queryStmt _ query => c = query ∧ q = 0 :: p
  | .insertStmt _ _ rows query =>
    (∃ (i : Nat) (row : List Node), rows[i]? = some row ∧ Position.Item (i :: 0 :: p) row c q) ∨
      query = some c ∧ q = 1 :: p
  | .deleteStmt _ condition => condition = some c ∧ q = 0 :: p
  | .updateStmt _ assignments condition =>
    Position.Item (0 :: p) (assignments.map (·.value)) c q ∨ condition = some c ∧ q = 1 :: p

theorem Position.exists_item {p : Position} {ns : List Node} {c : Node} :
    (∃ q, Position.Item p ns c q) ↔ c ∈ ns := by
  rw [List.mem_iff_getElem?]
  constructor
  · rintro ⟨q, i, hi, -⟩
    exact ⟨i, hi⟩
  · rintro ⟨i, hi⟩
    exact ⟨_, i, hi, rfl⟩

theorem Node.exists_part {n c : Node} {p : Position} : (∃ q, n.Part p c q) ↔ c ∈ n.children := by
  cases n with
  | literal | parameter | columnRef | argumentRef | columnDefault | singleRow | tableScan | withRef
  | unsupported => simp [Node.Part, Node.children]
  | call | aggregateCall | structField | subquery | arrayScan | filterScan | projectScan
  | aggregateScan | setOperation | orderByScan | limitScan | withScan | queryStmt | deleteStmt
  | updateStmt => simp [Node.Part, Node.children, exists_or, Position.exists_item]
  | analyticCall function arguments type distinct frame =>
    simp only [Node.Part, Node.children, exists_or, Position.exists_item, List.mem_append]
    refine or_congr Iff.rfl ?_
    cases frame with
    | none => simp
    | some f =>
      cases hfirst : f.first <;> cases hlast : f.last <;> simp [Frame.offsets, hfirst, hlast]
  | analyticScan columns input groups =>
    have hgroups : (∃ q, Position.GroupItem (1 :: p) groups c q) ↔
        c ∈ groups.flatMap fun g => g.calls.map (·.expr) := by
      rw [List.mem_flatMap]
      constructor
      · rintro ⟨q, i, g, hg, hc⟩
        exact ⟨g, List.mem_of_getElem? hg, Position.exists_item.1 ⟨q, hc⟩⟩
      · rintro ⟨g, hg, hc⟩
        obtain ⟨i, hi⟩ := List.mem_iff_getElem?.1 hg
        obtain ⟨q, hq⟩ := Position.exists_item.2 hc
        exact ⟨q, i, g, hi, hq⟩
    simp only [Node.Part, Node.children, exists_or, List.mem_cons, hgroups]
    simp
  | insertStmt table columns rows query =>
    have hrows : (∃ q i row, rows[i]? = some row ∧ Position.Item (i :: 0 :: p) row c q) ↔
        c ∈ rows.flatten := by
      rw [List.mem_flatten]
      constructor
      · rintro ⟨q, i, row, hrow, hc⟩
        exact ⟨row, List.mem_of_getElem? hrow, Position.exists_item.1 ⟨q, hc⟩⟩
      · rintro ⟨row, hrow, hc⟩
        obtain ⟨i, hi⟩ := List.mem_iff_getElem?.1 hrow
        obtain ⟨q, hq⟩ := Position.exists_item.2 hc
        exact ⟨q, i, row, hi, hq⟩
    simp only [Node.Part, Node.children, exists_or, List.mem_append, hrows]
    simp

/-- In the tree `n` at `p`, the node `m` stands at `q`. -/
inductive Node.Has : Node → Position → Node → Position → Prop
  | self (n : Node) (p : Position) : Has n p n p
  | part {n c m : Node} {p r q : Position} (hc : n.Part p c r) (h : Has c r m q) : Has n p m q

def Boundary.hasNoOffset (b : Boundary) : Bool :=
  match BoundaryKind.ofCode b.code with
  | .ok kind => !kind.hasOffset
  | .error _ => false

/-- Whether a rendering leaves out the part of a node with number `k`: the limit or the frame of a
call that is inlined, or the offset of a frame end that has none. -/
def Node.leavesOut (inlined : Bool) (n : Node) (k : Nat) : Bool :=
  match n, k with
  | .aggregateCall _ _ _ _ _ _, 1 => inlined
  | .analyticCall _ _ _ _ frame, 1 =>
    inlined || (frame.bind (·.first)).any Boundary.hasNoOffset
  | .analyticCall _ _ _ _ frame, 2 =>
    inlined || (frame.bind (·.last)).any Boundary.hasNoOffset
  | _, _ => false

/-- Whether the function called at a position has a body. -/
def Naming.inlines (ρ : Naming) (settings : Settings) (p : Position) : Bool :=
  match ρ.reference ⟨.function, p⟩ with
  | .ok name => (settings.registry.find? name).isSome
  | .error _ => false

/-- The position `q` is inside a part that rendering the tree `n` at `p` leaves out. -/
def Node.LeftOut (inlined : Position → Bool) (n : Node) (p q : Position) : Prop :=
  ∃ (m : Node) (r : Position) (k : Nat), n.Has p m r ∧ m.leavesOut (inlined r) k = true ∧
    (k :: r) <:+ q

theorem Position.Item.suffix {p q : Position} {k : Nat} {ns : List Node} {c : Node}
    (h : Position.Item (k :: p) ns c q) : p <:+ q := by
  obtain ⟨i, -, rfl⟩ := h
  exact (List.suffix_cons k p).trans (List.suffix_cons i _)

theorem Node.Part.suffix {n c : Node} {p q : Position} (h : n.Part p c q) : p <:+ q := by
  have hitem (k : Nat) (ns : List Node) : Position.Item (k :: p) ns c q → p <:+ q :=
    Position.Item.suffix
  have hinner (i k : Nat) (ns : List Node) : Position.Item (i :: k :: p) ns c q → p <:+ q :=
    fun h => (List.suffix_cons k p).trans h.suffix
  have hpart (k : Nat) : q = k :: p → p <:+ q := fun h => h ▸ List.suffix_cons k p
  cases n <;> simp only [Node.Part, Position.GroupItem] at h
  all_goals grind

theorem Node.Has.suffix {n m : Node} {p q : Position} (h : n.Has p m q) : p <:+ q := by
  induction h with
  | self n p => exact List.suffix_rfl
  | part hc _ ih => exact hc.suffix.trans ih

namespace Meaning

variable {α β : Type}

def Succeeds (m : Meaning α) : Prop := ∃ a, m.result = .ok a

theorem succeeds_bind {m : Meaning α} {g : α → Meaning β} :
    (m >>= g).Succeeds ↔ ∃ a, m.result = .ok a ∧ (g a).Succeeds := by
  constructor
  · rintro ⟨b, hb⟩
    obtain ⟨a, ha, hb⟩ := result_bind.1 hb
    exact ⟨a, ha, b, hb⟩
  · rintro ⟨a, ha, b, hb⟩
    exact ⟨b, result_bind.2 ⟨a, ha, hb⟩⟩

theorem Succeeds.first {m : Meaning α} {g : α → Meaning β} (h : (m >>= g).Succeeds) :
    m.Succeeds := by
  obtain ⟨a, ha, -⟩ := succeeds_bind.1 h
  exact ⟨a, ha⟩

theorem Succeeds.rest {m : Meaning α} {g : α → Meaning β} (h : (m >>= g).Succeeds) :
    ∃ a, (g a).Succeeds := by
  obtain ⟨a, -, ha⟩ := succeeds_bind.1 h
  exact ⟨a, ha⟩

theorem not_succeeds_fail (e : Error) : ¬ (fail e : Meaning α).Succeeds := by
  rintro ⟨a, ha⟩
  cases ha

theorem Succeeds.of_map {m : Meaning α} {m' : Meaning β} {f : α → β}
    (hm : m'.result = m.result.map f) (h : m'.Succeeds) : m.Succeeds := by
  obtain ⟨b, hb⟩ := h
  cases hr : m.result with
  | error e => simp [hm, hr, Except.map] at hb
  | ok a => exact ⟨a, hr⟩

theorem Succeeds.ownColumns {m : Meaning α} (h : m.ownColumns.Succeeds) : m.Succeeds :=
  .of_map rfl h

theorem Succeeds.ownScope {m : Meaning α} (h : m.ownScope.Succeeds) : m.Succeeds :=
  .of_map rfl h

theorem Succeeds.list {γ : Type} {x : γ → Position → Meaning α} {as : List γ} {p : Position}
    {j : Nat} (h : (Meaning.list p j (as.map x)).Succeeds) {i : Nat} {a : γ}
    (ha : as[i]? = some a) : (x a ((j + i) :: p)).Succeeds := by
  induction as generalizing j i with
  | nil => simp at ha
  | cons b as ih =>
    simp only [List.map_cons, Meaning.list] at h
    cases i with
    | zero =>
      obtain rfl : b = a := by simpa using ha
      exact h.first
    | succ i =>
      obtain ⟨_, hrest⟩ := h.rest
      have hi := ih hrest.first (by simpa using ha)
      rwa [show j + 1 + i = j + (i + 1) by omega] at hi

theorem Succeeds.groups {calls : CallGroup → AnalyticScope → Position → Meaning (List String)}
    {gs : List CallGroup} {p : Position} {j : Nat} {scope : AnalyticScope}
    (h : (Meaning.groups p j scope (gs.map fun g => (g, calls g))).Succeeds) {i : Nat}
    {g : CallGroup} (hg : gs[i]? = some g) :
    ∃ inner, (calls g inner ((j + i) :: p)).Succeeds := by
  induction gs generalizing j i scope with
  | nil => simp at hg
  | cons b gs ih =>
    simp only [List.map_cons, Meaning.groups] at h
    obtain ⟨_, h⟩ := h.rest
    cases i with
    | zero =>
      obtain rfl : b = g := by simpa using hg
      exact ⟨_, h.first⟩
    | succ i =>
      obtain ⟨_, h⟩ := h.rest
      obtain ⟨inner, hi⟩ := ih h (by simpa using hg)
      rw [show j + 1 + i = j + (i + 1) by omega] at hi
      exact ⟨inner, hi⟩

theorem Succeeds.callee {settings : Settings} {ρ : Naming} {p : Position} {function : String}
    {catalog : Catalog} {type : SqlType} {g : Callee → Meaning α}
    (h : (calleeMeaning settings ρ p function catalog type >>= g).Succeeds)
    (hi : ρ.inlines settings p = false) : ∃ name, (g (.named name)).Succeeds := by
  obtain ⟨callee, hcallee, h⟩ := succeeds_bind.1 h
  unfold calleeMeaning at hcallee
  split at hcallee
  · cases hcallee
    exact ⟨_, h⟩
  · obtain ⟨name, hname, hcallee⟩ := result_bind.1 hcallee
    rw [resolve_result] at hname
    cases hcallee
    unfold Naming.inlines at hi
    rw [hname, Option.isSome_eq_false_iff, Option.isNone_iff_eq_none] at hi
    unfold Settings.userCallee at h
    rw [hi] at h
    exact ⟨name, h⟩

theorem Succeeds.compute {column : Column} {m : Meaning String}
    (h : (Meaning.compute column m).Succeeds) : m.Succeeds :=
  Succeeds.first h

theorem Succeeds.itemOf {γ : Type} {x : γ → Position → Meaning α} {f : γ → Node} {as : List γ}
    {p q : Position} {c : Node} (h : (Meaning.list p 0 (as.map x)).Succeeds)
    (hc : Position.Item p (as.map f) c q) : ∃ a, f a = c ∧ (x a q).Succeeds := by
  obtain ⟨i, hi, rfl⟩ := hc
  rw [List.getElem?_map] at hi
  obtain ⟨a, ha, rfl⟩ := Option.map_eq_some_iff.1 hi
  refine ⟨a, rfl, ?_⟩
  rw [← Nat.zero_add i]
  exact h.list ha

theorem Succeeds.item {x : Node → Position → Meaning α} {ns : List Node} {p q : Position}
    {c : Node} (h : (Meaning.list p 0 (ns.map x)).Succeeds) (hc : Position.Item p ns c q) :
    (x c q).Succeeds := by
  obtain ⟨n, rfl, hn⟩ := h.itemOf (f := id) (by rwa [List.map_id])
  exact hn

end Meaning

section
variable {settings : Settings} {ρ : Naming} {scope : Option AnalyticScope} {p q : Position}

theorem Meaning.Succeeds.computed {inner : Option AnalyticScope} {computed : List ComputedColumn}
    {c : Node}
    (h : (Meaning.list p 0 (computed.map fun c q =>
      Meaning.compute c.column (c.expr.meaning settings ρ inner q))).Succeeds)
    (hc : Position.Item p (computed.map (·.expr)) c q) :
    (c.meaning settings ρ inner q).Succeeds := by
  obtain ⟨column, rfl, hcolumn⟩ := h.itemOf hc
  exact hcolumn.compute

/-- What is known of the part `c` at `q` of a node that has SQL: it is left out, or it has SQL. -/
inductive Node.PartRendered (settings : Settings) (ρ : Naming) (scope : Option AnalyticScope)
    (n : Node) (p : Position) (c : Node) (q : Position) : Prop
  | leftOut (k : Nat) (h : n.leavesOut (ρ.inlines settings p) k = true) (hq : q = k :: p)
  | same (h : (c.meaning settings ρ scope q).Succeeds)
  | grouped (columns : List Column) (input : Node) (groups : List CallGroup) (inner : AnalyticScope)
    (hn : n = .analyticScan columns input groups) (hc : Position.GroupItem (1 :: p) groups c q)
    (h : (c.meaning settings ρ (some inner) q).Succeeds)

def Boundary.Rendered (settings : Settings) (ρ : Naming) (scope : Option AnalyticScope)
    (q : Position) (b : Boundary) : Prop :=
  ∃ kind, BoundaryKind.ofCode b.code = .ok kind ∧
    (kind.hasOffset = true → ∃ e, b.offset = some e ∧ (e.meaning settings ρ scope q).Succeeds)

theorem Boundary.rendered_of_succeeds {edge : String} {b : Boundary}
    (h : (Boundary.meaning settings edge b.code (match b.offset with
      | none => pure ""
      | some e => e.meaning settings ρ scope q)).Succeeds) : b.Rendered settings ρ scope q := by
  obtain ⟨kind, hkind, h⟩ := Meaning.succeeds_bind.1 h
  refine ⟨kind, hkind, fun hoffset => ?_⟩
  rw [if_pos hoffset] at h
  cases ho : b.offset with
  | none =>
    -- an offset that is absent has no text, and that is an error
    rw [ho] at h
    simp only [Meaning.pure_bind, if_true] at h
    exact (Meaning.not_succeeds_fail _ h).elim
  | some e =>
    rw [ho] at h
    exact ⟨e, rfl, h.first⟩

theorem Node.frame_rendered {function : String} {arguments : List Node} {type : SqlType}
    {distinct : Bool} {f : Frame}
    (h : ((Node.analyticCall function arguments type distinct (some f)).meaning settings ρ scope
      p).Succeeds) (hi : ρ.inlines settings p = false) :
    (∃ unit, FrameUnit.ofCode f.unit = .ok unit) ∧
      (∀ b ∈ f.first, b.Rendered settings ρ scope (1 :: p)) ∧
      ∀ b ∈ f.last, b.Rendered settings ρ scope (2 :: p) := by
  obtain ⟨unit, first, last⟩ := f
  rw [Node.meaning.eq_def] at h
  cases scope with
  | none => exact (Meaning.not_succeeds_fail _ h).elim
  | some around =>
    obtain ⟨args, h⟩ := h.rest
    split at h
    · exact (Meaning.not_succeeds_fail _ h).elim
    · obtain ⟨name, h⟩ := h.callee hi
      obtain ⟨known, hknown, h⟩ := Meaning.succeeds_bind.1 h.first
      refine ⟨⟨known, hknown⟩, fun b hb => ?_, fun b hb => ?_⟩
      · cases b
        cases hb
        exact Boundary.rendered_of_succeeds h.first
      · obtain ⟨starts, h⟩ := h.rest
        cases b
        cases hb
        exact Boundary.rendered_of_succeeds h.first

theorem Boundary.Rendered.offset {b : Boundary} {c : Node} (h : b.Rendered settings ρ scope q)
    (hc : b.offset = some c) :
    b.hasNoOffset = true ∨ (c.meaning settings ρ scope q).Succeeds := by
  obtain ⟨kind, hkind, h⟩ := h
  cases ho : kind.hasOffset with
  | false => exact .inl (by simp [Boundary.hasNoOffset, hkind, ho])
  | true =>
    obtain ⟨e, he, h⟩ := h ho
    rw [he] at hc
    cases hc
    exact .inr h

theorem Node.part_rendered_aggregateCall {function : String} {arguments : List Node}
    {type : SqlType} {distinct : Bool} {orderBy : List OrderItem} {limit : Option Node} {c : Node}
    (h : ((Node.aggregateCall function arguments type distinct orderBy limit).meaning settings ρ
      scope p).Succeeds)
    (hc : (Node.aggregateCall function arguments type distinct orderBy limit).Part p c q) :
    (Node.aggregateCall function arguments type distinct orderBy limit).PartRendered settings ρ
      scope p c q := by
  rw [Node.meaning] at h
  rcases hc with hc | ⟨rfl, rfl⟩
  · exact .same (h.first.item hc)
  · cases hi : ρ.inlines settings p with
    | true => exact .leftOut 1 hi rfl
    | false =>
      obtain ⟨_, h⟩ := h.rest
      obtain ⟨name, h⟩ := h.callee hi
      exact .same h.first.first

theorem Node.part_rendered_analyticCall {function : String} {arguments : List Node}
    {type : SqlType} {distinct : Bool} {frame : Option Frame} {c : Node}
    (h : ((Node.analyticCall function arguments type distinct frame).meaning settings ρ scope
      p).Succeeds)
    (hc : (Node.analyticCall function arguments type distinct frame).Part p c q) :
    (Node.analyticCall function arguments type distinct frame).PartRendered settings ρ scope p c
      q := by
  rcases hc with hc | hc
  · rw [Node.meaning.eq_def] at h
    cases scope with
    | none => exact (Meaning.not_succeeds_fail _ h).elim
    | some around => exact .same (h.first.item hc).first
  cases hi : ρ.inlines settings p with
  | true =>
    rcases hc with ⟨f, b, -, -, -, rfl⟩ | ⟨f, b, -, -, -, rfl⟩
    · exact .leftOut 1 (by simp [Node.leavesOut, hi]) rfl
    · exact .leftOut 2 (by simp [Node.leavesOut, hi]) rfl
  | false =>
    rcases hc with ⟨f, b, rfl, hb, hoffset, rfl⟩ | ⟨f, b, rfl, hb, hoffset, rfl⟩
    · obtain ⟨-, hfirst, -⟩ := Node.frame_rendered h hi
      rcases (hfirst b hb).offset hoffset with hnone | hsome
      · exact .leftOut 1 (by simp [Node.leavesOut, hb, hnone]) rfl
      · exact .same hsome
    · obtain ⟨-, -, hlast⟩ := Node.frame_rendered h hi
      rcases (hlast b hb).offset hoffset with hnone | hsome
      · exact .leftOut 2 (by simp [Node.leavesOut, hb, hnone]) rfl
      · exact .same hsome

theorem Node.part_rendered_arrayScan {input : Option Node} {array : Node} {element : Column}
    {c : Node} (h : ((Node.arrayScan input array element).meaning settings ρ scope p).Succeeds)
    (hc : (Node.arrayScan input array element).Part p c q) :
    (Node.arrayScan input array element).PartRendered settings ρ scope p c q := by
  cases input with
  | some input =>
    rw [Node.meaning] at h
    exact (Meaning.not_succeeds_fail _ h).elim
  | none =>
    rw [Node.meaning] at h
    rcases hc with ⟨hinput, -⟩ | ⟨rfl, rfl⟩
    · cases hinput
    · exact .same h.first

theorem Node.part_rendered_aggregateScan {columns : List Column} {input : Node}
    {keys aggregates : List ComputedColumn} {c : Node}
    (h : ((Node.aggregateScan columns input keys aggregates).meaning settings ρ scope p).Succeeds)
    (hc : (Node.aggregateScan columns input keys aggregates).Part p c q) :
    (Node.aggregateScan columns input keys aggregates).PartRendered settings ρ scope p c q := by
  rw [Node.meaning] at h
  rcases hc with hc | hc | ⟨rfl, rfl⟩
  · exact .same (h.first.computed hc)
  · obtain ⟨_, h⟩ := h.rest
    exact .same (h.first.computed hc)
  · obtain ⟨_, h⟩ := h.rest
    obtain ⟨_, h⟩ := h.rest
    exact .same h.first

theorem Node.part_rendered_limitScan {input limit : Node} {offset : Option Node} {c : Node}
    (h : ((Node.limitScan input limit offset).meaning settings ρ scope p).Succeeds)
    (hc : (Node.limitScan input limit offset).Part p c q) :
    (Node.limitScan input limit offset).PartRendered settings ρ scope p c q := by
  rw [Node.meaning.eq_def] at h
  rcases hc with ⟨rfl, rfl⟩ | ⟨rfl, rfl⟩ | ⟨rfl, rfl⟩
  · exact .same h.first
  · obtain ⟨_, h⟩ := h.rest
    exact .same h.first
  · obtain ⟨_, h⟩ := h.rest
    obtain ⟨_, h⟩ := h.rest
    exact .same h.first

theorem Node.part_rendered_withScan {entries : List NamedQuery} {query : Node} {recursive : Bool}
    {c : Node} (h : ((Node.withScan entries query recursive).meaning settings ρ scope p).Succeeds)
    (hc : (Node.withScan entries query recursive).Part p c q) :
    (Node.withScan entries query recursive).PartRendered settings ρ scope p c q := by
  rw [Node.meaning] at h
  split at h
  · exact (Meaning.not_succeeds_fail _ h).elim
  · rcases hc with hc | ⟨rfl, rfl⟩
    · obtain ⟨entry, rfl, hentry⟩ := h.first.itemOf hc
      exact .same hentry.first
    · obtain ⟨_, h⟩ := h.rest
      exact .same h.first

theorem Node.part_rendered_analyticScan {columns : List Column} {input : Node}
    {groups : List CallGroup} {c : Node}
    (h : ((Node.analyticScan columns input groups).meaning settings ρ scope p).Succeeds)
    (hc : (Node.analyticScan columns input groups).Part p c q) :
    (Node.analyticScan columns input groups).PartRendered settings ρ scope p c q := by
  rw [Node.meaning] at h
  rcases hc with ⟨rfl, rfl⟩ | hc
  · exact .same h.first
  · obtain ⟨_, h⟩ := h.rest
    obtain ⟨i, g, hg, hitem⟩ := hc
    obtain ⟨inner, hcalls⟩ := h.first.ownScope.groups hg
    rw [Nat.zero_add] at hcalls
    exact .grouped _ _ _ inner rfl ⟨i, g, hg, hitem⟩ (hcalls.computed hitem)

theorem Node.source_rendered {table : String} {columns : List Column} {rows : List (List Node)}
    {query : Option Node}
    (h : ((Node.insertStmt table columns rows query).meaning settings ρ scope p).Succeeds) :
    (∃ e, query = some e ∧ rows = [] ∧ (e.meaning settings ρ scope (1 :: p)).Succeeds) ∨
    (query = none ∧ rows ≠ [] ∧ ∀ (i : Nat) (row : List Node), rows[i]? = some row →
      row.length = columns.length ∧
        (Meaning.list (i :: 0 :: p) 0
          (row.map fun e q => e.meaning settings ρ scope q)).Succeeds) := by
  rw [Node.meaning.eq_def] at h
  obtain ⟨name, h⟩ := h.rest
  cases query with
  | some e =>
    cases rows with
    | nil => exact .inl ⟨e, rfl, rfl, h.first⟩
    | cons row rows => exact (Meaning.not_succeeds_fail _ h).elim
  | none =>
    cases rows with
    | nil => exact (Meaning.not_succeeds_fail _ h).elim
    | cons row rows =>
      refine .inr ⟨rfl, by simp, fun i row hrow => ?_⟩
      have hrow := h.first.list hrow
      rw [Nat.zero_add, rowMeaning] at hrow
      split at hrow
      · exact (Meaning.not_succeeds_fail _ hrow).elim
      · rename_i hwidth
        exact ⟨by simpa using hwidth, hrow.first⟩

theorem Node.part_rendered_insertStmt {table : String} {columns : List Column}
    {rows : List (List Node)} {query : Option Node} {c : Node}
    (h : ((Node.insertStmt table columns rows query).meaning settings ρ scope p).Succeeds)
    (hc : (Node.insertStmt table columns rows query).Part p c q) :
    (Node.insertStmt table columns rows query).PartRendered settings ρ scope p c q := by
  rcases Node.source_rendered h with ⟨e, rfl, rfl, he⟩ | ⟨rfl, -, hrows⟩
  · rcases hc with ⟨i, row, hrow, -⟩ | ⟨hquery, rfl⟩
    · simp at hrow
    · cases hquery
      exact .same he
  · rcases hc with ⟨i, row, hrow, hitem⟩ | ⟨hquery, -⟩
    · exact .same ((hrows i row hrow).2.item hitem)
    · cases hquery

theorem Node.part_rendered_updateStmt {table : String} {assignments : List Assignment}
    {condition : Option Node} {c : Node}
    (h : ((Node.updateStmt table assignments condition).meaning settings ρ scope p).Succeeds)
    (hc : (Node.updateStmt table assignments condition).Part p c q) :
    (Node.updateStmt table assignments condition).PartRendered settings ρ scope p c q := by
  rw [Node.meaning.eq_def] at h
  obtain ⟨_, h⟩ := h.rest
  split at h
  · exact (Meaning.not_succeeds_fail _ h).elim
  · rcases hc with hc | ⟨rfl, rfl⟩
    · obtain ⟨assignment, rfl, hvalue⟩ := h.first.itemOf hc
      exact .same hvalue.first
    · obtain ⟨_, h⟩ := h.rest
      exact .same h.first

/-- If a node has SQL, each part of it is left out or has SQL, in the same scope unless it is a call
of a group. -/
theorem Node.part_rendered {n c : Node} (h : (n.meaning settings ρ scope p).Succeeds)
    (hc : n.Part p c q) : n.PartRendered settings ρ scope p c q := by
  cases n with
  | literal | parameter | columnRef | argumentRef | columnDefault | singleRow | tableScan | withRef
  | unsupported => exact hc.elim
  | call function arguments type =>
    rw [Node.meaning] at h
    exact .same (h.first.item hc)
  | aggregateCall => exact part_rendered_aggregateCall h hc
  | analyticCall => exact part_rendered_analyticCall h hc
  | structField operand index type =>
    obtain ⟨rfl, rfl⟩ := hc
    rw [Node.meaning] at h
    exact .same h.first
  | subquery kind query type =>
    obtain ⟨rfl, rfl⟩ := hc
    rw [Node.meaning] at h
    exact .same h.first
  | arrayScan => exact part_rendered_arrayScan h hc
  | filterScan input condition =>
    rw [Node.meaning] at h
    rcases hc with ⟨rfl, rfl⟩ | ⟨rfl, rfl⟩
    · exact .same h.first
    · obtain ⟨_, h⟩ := h.rest
      exact .same h.first
  | projectScan columns computed input =>
    rw [Node.meaning] at h
    rcases hc with hc | ⟨rfl, rfl⟩
    · exact .same (h.first.ownColumns.computed hc)
    · obtain ⟨_, h⟩ := h.rest
      exact .same h.first.ownColumns
  | aggregateScan => exact part_rendered_aggregateScan h hc
  | setOperation code branches =>
    rw [Node.meaning] at h
    obtain ⟨_, h⟩ := h.rest
    obtain ⟨branch, rfl, hbranch⟩ := h.first.itemOf hc
    exact .same hbranch
  | orderByScan input items =>
    obtain ⟨rfl, rfl⟩ := hc
    rw [Node.meaning] at h
    exact .same h.first
  | limitScan => exact part_rendered_limitScan h hc
  | withScan => exact part_rendered_withScan h hc
  | analyticScan => exact part_rendered_analyticScan h hc
  | queryStmt columns query =>
    obtain ⟨rfl, rfl⟩ := hc
    rw [meaning_queryStmt] at h
    exact .same h
  | insertStmt => exact part_rendered_insertStmt h hc
  | deleteStmt table condition =>
    obtain ⟨rfl, rfl⟩ := hc
    rw [Node.meaning.eq_def] at h
    obtain ⟨_, h⟩ := h.rest
    exact .same h.first
  | updateStmt => exact part_rendered_updateStmt h hc

/-- In the tree `n` at `p`, the node `m` at `q` is inside a group of an analytic scan. -/
def Node.InGroup (n : Node) (p : Position) (m : Node) (q : Position) : Prop :=
  ∃ (columns : List Column) (input : Node) (groups : List CallGroup) (r : Position) (c : Node)
    (t : Position), n.Has p (.analyticScan columns input groups) r ∧
      Position.GroupItem (1 :: r) groups c t ∧ c.Has t m q

theorem Node.LeftOut.part {inlined : Position → Bool} {n c : Node} {r : Position}
    (h : c.LeftOut inlined r q) (hc : n.Part p c r) : n.LeftOut inlined p q := by
  obtain ⟨m, t, k, hm, hk, hq⟩ := h
  exact ⟨m, t, k, .part hc hm, hk, hq⟩

theorem Node.InGroup.part {n c m : Node} {r : Position} (h : c.InGroup r m q)
    (hc : n.Part p c r) : n.InGroup p m q := by
  obtain ⟨columns, input, groups, t, call, u, hscan, hrest⟩ := h
  exact ⟨columns, input, groups, t, call, u, .part hc hscan, hrest⟩

/-- If a tree has SQL, each node of it is left out or has SQL, in the same scope unless it is inside
a group. -/
theorem Node.Has.rendered {n m : Node} (hm : n.Has p m q)
    (h : (n.meaning settings ρ scope p).Succeeds) :
    n.LeftOut (ρ.inlines settings) p q ∨
      ∃ inner, (m.meaning settings ρ inner q).Succeeds ∧ (inner = scope ∨ n.InGroup p m q) := by
  induction hm generalizing scope with
  | self n p => exact .inr ⟨scope, h, .inl rfl⟩
  | @part n c m p r q hc hm ih =>
    cases Node.part_rendered h hc with
    | leftOut k hk hr =>
      subst hr
      exact .inl ⟨n, p, k, .self n p, hk, hm.suffix⟩
    | same hs =>
      rcases ih hs with hleft | ⟨inner, hinner, rfl | hgroup⟩
      · exact .inl (hleft.part hc)
      · exact .inr ⟨_, hinner, .inl rfl⟩
      · exact .inr ⟨inner, hinner, .inr (hgroup.part hc)⟩
    | grouped columns input groups inner hn hitem hs =>
      subst hn
      rcases ih hs with hleft | ⟨inner, hinner, -⟩
      · exact .inl (hleft.part hc)
      · exact .inr ⟨inner, hinner, .inr ⟨_, _, _, p, c, r, .self _ p, hitem, hm⟩⟩

end

namespace Statement

def inlines (s : Statement) (settings : Settings) : Position → Bool :=
  (s.naming settings).inlines settings

theorem rendered {s : Statement} {settings : Settings} {sql : String} {m : Node} {q : Position}
    (h : (s.toSql settings).result = .ok sql) (hm : s.root.Has [] m q) :
    s.root.LeftOut (s.inlines settings) [] q ∨
      ∃ inner, (m.meaning settings (s.naming settings) inner q).Succeeds ∧
        (inner = none ∨ s.root.InGroup [] m q) := by
  rw [s.toSql_result settings rfl (s.naming_agrees settings)] at h
  exact hm.rendered ⟨sql, h⟩

end Statement
end ResolvedSql
