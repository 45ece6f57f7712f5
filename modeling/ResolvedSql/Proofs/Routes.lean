import ResolvedSql.Proofs.Sites
/-!
Facts about the routes of trees: no route enters a site twice, a tree without references visits
nothing, and where the options of calls have no references it does not matter which functions have
bodies. All of them come from one induction over trees, for relations between routes that are kept
by the operations routes are built with.
-/
set_option autoImplicit false

namespace ResolvedSql

/-- The parts of a call that are left out if its function has a body. -/
def Node.options : Node → List Node
  | .aggregateCall _ _ _ _ _ limit => limit.toList
  | .analyticCall _ _ _ _ frame => (frame.map Frame.offsets).getD []
  | _ => []

/-- A relation `M slots p q r s` between routes `r` and `s` through the given slots of nodes at `p`
and `q`, where slot `none` is the node itself. The options of calls are known to satisfy `Opt`. -/
structure Route.Invariant (f g : Nat → Bool) (Opt : Route → Prop)
    (M : List (Option Nat) → Position → Position → Route → Route → Prop) : Prop where
  mono {ks ls : List (Option Nat)} {p q : Position} {r s : Route} (h : M ks p q r s)
    (hk : ∀ k ∈ ks, k ∈ ls) : M ls p q r s
  none (p q : Position) : M [] p q .none .none
  own (kind : Reference) (p q : Position) : M [Option.none] p q (.one ⟨kind, p⟩) (.one ⟨kind, q⟩)
  append {ks ls : List (Option Nat)} {p q : Position} {r s r' s' : Route} (h : M ks p q r s)
    (h' : M ls p q r' s') (hd : ∀ k ∈ ks, k ∉ ls) : M (ks ++ ls) p q (r ++ r') (s ++ s')
  when {ks : List (Option Nat)} {p q : Position} {r s : Route} (b : Bool) (h : M ks p q r s) :
    M ks p q (.when b r) (.when b s)
  call {ks : List (Option Nat)} {p q : Position} {r s : Route} (isUser : Bool) (h : M ks p q r s)
    (ho : Opt r) (hk : Option.none ∉ ks) :
    M (Option.none :: ks) p q (.call f ⟨.function, p⟩ isUser r) (.call g ⟨.function, q⟩ isUser s)
  part {ks : List (Option Nat)} {k : Nat} {p q : Position} {r s : Route}
    (h : M ks (k :: p) (k :: q) r s) : M [some k] p q r s
  optNone : Opt .none
  optAppend {r s : Route} (h : Opt r) (h' : Opt s) : Opt (r ++ s)
  optWhen {r : Route} (b : Bool) (h : Opt r) : Opt (.when b r)

namespace Route.Invariant

variable {f g : Nat → Bool} {Opt : Route → Prop}
variable {M : List (Option Nat) → Position → Position → Route → Route → Prop}

theorem items (inv : Invariant f g Opt M) {γ : Type} {t u : γ → Position → Route} {xs : List γ}
    (h : ∀ x ∈ xs, ∀ p q, ∃ ks, M ks p q (t x p) (u x q)) (p q : Position) (j : Nat) :
    ∃ ks : List (Option Nat), (∀ k ∈ ks, ∃ i, j ≤ i ∧ k = some i) ∧
      M ks p q (.list p j (xs.map t)) (.list q j (xs.map u)) := by
  induction xs generalizing j with
  | nil => exact ⟨[], by simp, inv.none p q⟩
  | cons x xs ih =>
    obtain ⟨ks, hx⟩ := h x (List.mem_cons_self ..) (j :: p) (j :: q)
    obtain ⟨ls, hls, hxs⟩ := ih (fun x hx => h x (List.mem_cons_of_mem _ hx)) (j + 1)
    refine ⟨[some j] ++ ls, ?_, inv.append (inv.part hx) hxs ?_⟩
    · intro k hk
      rcases List.mem_append.1 hk with hk | hk
      · exact ⟨j, Nat.le_refl j, List.mem_singleton.1 hk⟩
      · obtain ⟨i, hi, rfl⟩ := hls k hk
        exact ⟨i, by omega, rfl⟩
    · intro k hk hl
      obtain ⟨i, hi, rfl⟩ := hls k hl
      have : some i = some j := List.mem_singleton.1 hk
      simp only [Option.some.injEq] at this
      omega

theorem listAt (inv : Invariant f g Opt M) {γ : Type} {t u : γ → Position → Route} {xs : List γ}
    (h : ∀ x ∈ xs, ∀ p q, ∃ ks, M ks p q (t x p) (u x q)) (p q : Position) :
    ∃ ks, M ks p q (.list p 0 (xs.map t)) (.list q 0 (xs.map u)) := by
  obtain ⟨ks, -, hxs⟩ := inv.items h p q 0
  exact ⟨ks, hxs⟩

theorem list (inv : Invariant f g Opt M) {γ : Type} {t u : γ → Position → Route} {xs : List γ}
    (h : ∀ x ∈ xs, ∀ p q, ∃ ks, M ks p q (t x p) (u x q)) (k : Nat) (p q : Position) :
    M [some k] p q (.list (k :: p) 0 (xs.map t)) (.list (k :: q) 0 (xs.map u)) := by
  obtain ⟨ks, hxs⟩ := inv.listAt h (k :: p) (k :: q)
  exact inv.part hxs

theorem option (inv : Invariant f g Opt M) (k : Nat) {p q : Position} {t u : Node → Route}
    (o : Option Node) :
    (∀ e, o = some e → ∃ ks, M ks (k :: p) (k :: q) (t e) (u e)) →
    M [some k] p q
      (match o with
      | Option.none => .none
      | some e => t e)
      (match o with
      | Option.none => .none
      | some e => u e) := by
  intro h
  cases o with
  | none => exact inv.mono (inv.none p q) (by simp)
  | some e =>
    obtain ⟨ks, he⟩ := h e rfl
    exact inv.part he

theorem boundary (inv : Invariant f g Opt M) (k : Nat) {p q : Position} {t u : Node → Route}
    (o : Option Boundary) :
    (∀ e ∈ (o.bind (·.offset)).toList, ∃ ks, M ks (k :: p) (k :: q) (t e) (u e)) →
    M [some k] p q
      (match o with
      | Option.none => .none
      | some ⟨code, offset⟩ => .when (Boundary.rendersOffset code) (match offset with
        | Option.none => .none
        | some e => t e))
      (match o with
      | Option.none => .none
      | some ⟨code, offset⟩ => .when (Boundary.rendersOffset code) (match offset with
        | Option.none => .none
        | some e => u e)) := by
  intro h
  cases o with
  | none => exact inv.mono (inv.none p q) (by simp)
  | some b =>
    obtain ⟨code, offset⟩ := b
    exact inv.when _ (inv.option k offset fun e he => h e (by simp [he]))

theorem optBoundary (inv : Invariant f g Opt M) {t : Node → Route} (o : Option Boundary) :
    (∀ e ∈ (o.bind (·.offset)).toList, Opt (t e)) →
    Opt (match o with
      | Option.none => .none
      | some ⟨code, offset⟩ => .when (Boundary.rendersOffset code) (match offset with
        | Option.none => .none
        | some e => t e)) := by
  intro h
  cases o with
  | none => exact inv.optNone
  | some b =>
    obtain ⟨code, offset⟩ := b
    refine inv.optWhen _ ?_
    cases offset with
    | none => exact inv.optNone
    | some e => exact h e (by simp)

end Route.Invariant

section
variable {f g : Nat → Bool} {Opt : Route → Prop}
variable {M : List (Option Nat) → Position → Position → Route → Route → Prop}

theorem Node.route_invariant_aggregateCall (inv : Route.Invariant f g Opt M) {function : String}
    {arguments : List Node} {type : SqlType} {distinct : Bool} {orderBy : List OrderItem}
    {limit : Option Node}
    (ho : ∀ e ∈ (Node.aggregateCall function arguments type distinct orderBy limit).options,
      ∀ p, Opt (e.route f p))
    (ih : ∀ c ∈ (Node.aggregateCall function arguments type distinct orderBy limit).children,
      ∀ p q, ∃ ks, M ks p q (c.route f p) (c.route g q)) (p q : Position) :
    ∃ ks, M ks p q ((Node.aggregateCall function arguments type distinct orderBy limit).route f p)
      ((Node.aggregateCall function arguments type distinct orderBy limit).route g q) := by
  simp only [Node.children, List.mem_append, Option.mem_toList] at ih
  rw [Node.route.eq_def, Node.route.eq_def]
  refine ⟨_, inv.append (inv.list (fun e he => ih e (.inl he)) 0 p q) (inv.call _
    (inv.option 1 limit fun e he => ih e (.inr he) _ _) ?_ (by simp)) (by simp)⟩
  cases limit with
  | none => exact inv.optNone
  | some e => exact ho e (by simp [Node.options]) _

theorem Node.route_invariant_analyticCall (inv : Route.Invariant f g Opt M) {function : String}
    {arguments : List Node} {type : SqlType} {distinct : Bool} {frame : Option Frame}
    (ho : ∀ e ∈ (Node.analyticCall function arguments type distinct frame).options,
      ∀ p, Opt (e.route f p))
    (ih : ∀ c ∈ (Node.analyticCall function arguments type distinct frame).children,
      ∀ p q, ∃ ks, M ks p q (c.route f p) (c.route g q)) (p q : Position) :
    ∃ ks, M ks p q ((Node.analyticCall function arguments type distinct frame).route f p)
      ((Node.analyticCall function arguments type distinct frame).route g q) := by
  simp only [Node.children, List.mem_append] at ih
  rw [Node.route.eq_def, Node.route.eq_def]
  cases frame with
  | none =>
    exact ⟨_, inv.append (inv.list (fun e he => ih e (.inl he)) 0 p q)
      (inv.call _ (inv.none p q) inv.optNone (by simp)) (by simp)⟩
  | some frame =>
    obtain ⟨unit, first, last⟩ := frame
    simp only [Node.options, Option.map_some, Option.getD_some, Frame.offsets,
      List.mem_append] at ih ho
    refine ⟨_, inv.append (inv.list (fun e he => ih e (.inl he)) 0 p q) (inv.call _
      (inv.append (inv.boundary 1 first fun e he => ih e (.inr (.inl he)) _ _)
        (inv.boundary 2 last fun e he => ih e (.inr (.inr he)) _ _) (by simp))
      (inv.optAppend (inv.optBoundary first fun e he => ho e (.inl he) _)
        (inv.optBoundary last fun e he => ho e (.inr he) _)) (by simp)) (by simp)⟩

theorem Node.route_invariant (inv : Route.Invariant f g Opt M) (n : Node)
    (hn : n.Everywhere fun n => ∀ e ∈ n.options, ∀ p, Opt (e.route f p)) :
    ∀ p q, ∃ ks, M ks p q (n.route f p) (n.route g q) := by
  induction n using Node.induction with
  | step n ih =>
    intro p q
    have ho := hn.here
    have ih c hc := ih c hc (hn.children c hc)
    clear hn
    -- which slots a node uses does not matter outside it: it lies in one slot of the node above
    have part {k : Nat} {c : Node} (hc : c ∈ n.children) :
        M [some k] p q (c.route f (k :: p)) (c.route g (k :: q)) := by
      obtain ⟨ks, h⟩ := ih c hc (k :: p) (k :: q)
      exact inv.part h
    cases n with
    | literal | parameter | columnRef | argumentRef | columnDefault | singleRow | withRef
    | unsupported =>
      rw [Node.route, Node.route]
      exact ⟨_, inv.none p q⟩
    | call function arguments type =>
      rw [Node.route, Node.route]
      exact ⟨_, inv.append (inv.list ih 0 p q)
        (inv.call _ (inv.none p q) inv.optNone (by simp)) (by simp)⟩
    | aggregateCall => exact route_invariant_aggregateCall inv ho ih p q
    | analyticCall => exact route_invariant_analyticCall inv ho ih p q
    | structField operand index type =>
      rw [Node.route, Node.route]
      exact ⟨_, part (by simp [Node.children])⟩
    | subquery kind query type =>
      rw [Node.route, Node.route]
      exact ⟨_, part (by simp [Node.children])⟩
    | tableScan table columns =>
      rw [Node.route, Node.route]
      exact ⟨_, inv.own _ p q⟩
    | arrayScan input array element =>
      rw [Node.route.eq_def, Node.route.eq_def]
      exact ⟨_, inv.append (inv.option 0 input fun e he => ih e (by simp [Node.children, he]) _ _)
        (part (by simp [Node.children])) (by simp)⟩
    | filterScan input condition =>
      rw [Node.route, Node.route]
      exact ⟨_, inv.append (part (by simp [Node.children])) (part (by simp [Node.children]))
        (by simp)⟩
    | projectScan columns computed input =>
      simp only [Node.children, List.mem_append, List.mem_map] at ih
      rw [Node.route, Node.route]
      exact ⟨_, inv.append (inv.list (fun e he => ih _ (.inl ⟨e, he, rfl⟩)) 0 p q)
        (part (by simp [Node.children])) (by simp)⟩
    | aggregateScan columns input keys aggregates =>
      simp only [Node.children, List.mem_append, List.mem_map] at ih
      rw [Node.route, Node.route]
      exact ⟨_, inv.append (inv.append
        (inv.list (fun e he => ih _ (.inl (.inl ⟨e, he, rfl⟩))) 2 p q)
        (inv.list (fun e he => ih _ (.inl (.inr ⟨e, he, rfl⟩))) 1 p q) (by simp))
        (part (by simp [Node.children])) (by simp)⟩
    | setOperation code branches =>
      rw [Node.route, Node.route]
      exact ⟨_, inv.list (fun b hb => ih _ (List.mem_map.2 ⟨b, hb, rfl⟩)) 0 p q⟩
    | orderByScan input items =>
      rw [Node.route, Node.route]
      exact ⟨_, part (by simp [Node.children])⟩
    | limitScan input limit offset =>
      rw [Node.route.eq_def, Node.route.eq_def]
      exact ⟨_, inv.append (inv.append (part (by simp [Node.children]))
        (part (by simp [Node.children])) (by simp))
        (inv.option 2 offset fun e he => ih e (by simp [Node.children, he]) _ _) (by simp)⟩
    | withScan entries query recursive =>
      simp only [Node.children, List.mem_append, List.mem_map] at ih
      rw [Node.route, Node.route]
      exact ⟨_, inv.append (inv.list (fun e he => ih _ (.inl ⟨e, he, rfl⟩)) 0 p q)
        (part (by simp [Node.children])) (by simp)⟩
    | analyticScan columns input groups =>
      simp only [Node.children, List.mem_cons, List.mem_flatMap, List.mem_map] at ih
      rw [Node.route, Node.route]
      refine ⟨_, inv.append (part (by simp [Node.children])) (inv.list (fun g hg => ?_) 1 p q)
        (by simp)⟩
      exact inv.listAt fun e he => ih _ (.inr ⟨g, hg, e, he, rfl⟩)
    | queryStmt columns query =>
      rw [Node.route, Node.route]
      exact ⟨_, part (by simp [Node.children])⟩
    | insertStmt table columns rows query =>
      rw [Node.route.eq_def, Node.route.eq_def]
      simp only [Node.children, List.mem_append, List.mem_flatten, Option.mem_toList] at ih
      refine ⟨_, inv.append (inv.append (inv.own _ p q) (inv.list (fun row hr => ?_) 0 p q)
        (by simp)) (inv.option 1 query fun e he => ih e (.inr he) _ _) (by simp)⟩
      exact inv.listAt fun e he => ih e (.inl ⟨row, hr, he⟩)
    | deleteStmt table condition =>
      rw [Node.route.eq_def, Node.route.eq_def]
      exact ⟨_, inv.append (inv.own _ p q)
        (inv.option 0 condition fun e he => ih e (by simp [Node.children, he]) _ _) (by simp)⟩
    | updateStmt table assignments condition =>
      simp only [Node.children, List.mem_append, List.mem_map, Option.mem_toList] at ih
      rw [Node.route.eq_def, Node.route.eq_def]
      exact ⟨_, inv.append (inv.append (inv.own _ p q)
        (inv.list (fun a ha => ih _ (.inl ⟨a, ha, rfl⟩)) 0 p q) (by simp))
        (inv.option 1 condition fun e he => ih e (.inr he) _ _) (by simp)⟩

end

def Position.Through (p : Position) (k : Option Nat) (q : Position) : Prop :=
  match k with
  | none => q = p
  | some k => (k :: p) <:+ q

theorem Position.through_unique {p q : Position} {k l : Option Nat} (hk : p.Through k q)
    (hl : p.Through l q) : k = l := by
  have hlength {k : Nat} (h : (k :: p) <:+ p) : False := by
    have := h.length_le
    rw [List.length_cons] at this
    omega
  cases k with
  | none =>
    cases l with
    | none => rfl
    | some l =>
      obtain rfl : q = p := hk
      exact (hlength hl).elim
  | some k =>
    cases l with
    | none =>
      obtain rfl : q = p := hl
      exact (hlength hk).elim
    | some l =>
      have hsuffix := List.suffix_of_suffix_length_le hk hl (by simp)
      have heq := hsuffix.eq_of_length (by simp)
      simp only [List.cons.injEq, and_true] at heq
      rw [heq]

/-- A route with distinct sites, all in the given slots. -/
def Route.Spread (ks : List (Option Nat)) (p : Position) (r : Route) : Prop :=
  ∀ i, (r i).Nodup ∧ ∀ site ∈ r i, ∃ k ∈ ks, p.Through k site.position

theorem Route.spread_invariant (f : Nat → Bool) :
    Route.Invariant f f (fun _ => True) fun ks p _ r _ => r.Spread ks p where
  mono h hk i := ⟨(h i).1, fun site hs =>
    have ⟨k, hks, ht⟩ := (h i).2 site hs
    ⟨k, hk k hks, ht⟩⟩
  none p _ i := by simp
  own kind p _ i := by simp [Position.Through]
  append h h' hd i := by
    refine ⟨List.nodup_append.2 ⟨(h i).1, (h' _).1, ?_⟩, ?_⟩
    · intro a ha b hb hab
      obtain ⟨k, hk, hka⟩ := (h i).2 a ha
      obtain ⟨l, hl, hlb⟩ := (h' _).2 b hb
      rw [hab] at hka
      exact hd k hk (Position.through_unique hka hlb ▸ hl)
    · intro site hs
      rcases List.mem_append.1 hs with hs | hs
      · obtain ⟨k, hk, ht⟩ := (h i).2 site hs
        exact ⟨k, List.mem_append_left _ hk, ht⟩
      · obtain ⟨k, hk, ht⟩ := (h' _).2 site hs
        exact ⟨k, List.mem_append_right _ hk, ht⟩
  when b h i := by
    cases b with
    | true => exact h i
    | false => simp [Route.when]
  call {ks p _ r _} isUser h ho hk i := by
    have hcons {j : Nat} : (⟨.function, p⟩ :: r j).Nodup ∧
        ∀ site ∈ (⟨.function, p⟩ :: r j : List Site), ∃ k ∈ Option.none :: ks,
          p.Through k site.position := by
      refine ⟨List.nodup_cons.2 ⟨fun hp => ?_, (h j).1⟩, fun site hs => ?_⟩
      · obtain ⟨k, hks, ht⟩ := (h j).2 _ hp
        have hnone : p.Through Option.none p := rfl
        exact hk (Position.through_unique hnone ht ▸ hks)
      · rcases List.mem_cons.1 hs with rfl | hs
        · exact ⟨_, List.mem_cons_self .., rfl⟩
        · obtain ⟨k, hks, ht⟩ := (h j).2 site hs
          exact ⟨k, List.mem_cons_of_mem _ hks, ht⟩
    unfold Route.call
    cases isUser with
    | true =>
      cases f i with
      | true => simp [Position.Through]
      | false => exact hcons
    | false =>
      refine ⟨(h i).1, fun site hs => ?_⟩
      obtain ⟨k, hks, ht⟩ := (h i).2 site hs
      exact ⟨k, List.mem_cons_of_mem _ hks, ht⟩
  part h i := by
    refine ⟨(h i).1, fun site hs => ⟨_, List.mem_singleton_self _, ?_⟩⟩
    obtain ⟨l, -, ht⟩ := (h i).2 site hs
    cases l with
    | none =>
      rw [show site.position = _ from ht]
      exact List.suffix_rfl
    | some l => exact (List.suffix_cons l _).trans ht
  optNone := trivial
  optAppend _ _ := trivial
  optWhen _ _ := trivial

theorem Node.route_nodup (f : Nat → Bool) (n : Node) (p : Position) (i : Nat) :
    (n.route f p i).Nodup := by
  obtain ⟨ks, h⟩ := n.route_invariant (Route.spread_invariant f) (.of_forall (by simp) n) p p
  exact (h i).1

theorem Route.silence_invariant (f g : Nat → Bool) :
    Route.Invariant f g (fun _ => True) fun _ _ _ r s => ∀ i j, r i = [] → s j = [] where
  mono h _ := h
  none _ _ _ _ _ := rfl
  own _ _ _ _ _ hr := nomatch hr
  append h h' _ i j hr := by
    rw [append_apply, List.append_eq_nil_iff] at hr ⊢
    exact ⟨h i j hr.1, h' _ _ hr.2⟩
  when b h := by
    cases b with
    | true => exact h
    | false => exact fun _ _ _ => rfl
  call isUser h _ _ i j hr := by
    cases isUser with
    | true => simp [Route.call] at hr
    | false => exact h i j hr
  part h := h
  optNone := trivial
  optAppend _ _ := trivial
  optWhen _ _ := trivial

theorem Node.route_eq_none {n : Node} (h : n.sites = []) (f : Nat → Bool) (p : Position) :
    n.route f p = .none := by
  funext j
  obtain ⟨_, hs⟩ := n.route_invariant (Route.silence_invariant (fun _ => false) f)
    (.of_forall (by simp) n) [] p
  exact hs 0 j h

theorem Route.equal_invariant (f g : Nat → Bool) :
    Route.Invariant f g (· = .none) fun _ p q r s => p = q → r = s where
  mono h _ := h
  none _ _ _ := rfl
  own _ _ _ hpq := by rw [hpq]
  append h h' _ hpq := by rw [h hpq, h' hpq]
  when b h hpq := by rw [h hpq]
  call isUser h ho _ hpq := by
    funext i
    rw [← h hpq, ho, hpq]
    simp [Route.call]
  part h hpq := h (by rw [hpq])
  optNone := rfl
  optAppend h h' := by rw [h, h', none_append]
  optWhen b h := by
    rw [h]
    cases b <;> rfl

/-- No option of a call in the tree has references. -/
def Node.Quiet (n : Node) : Prop := n.Everywhere fun m => ∀ e ∈ m.options, e.sites = []

instance (n : Node) : Decidable n.Quiet :=
  inferInstanceAs (Decidable (n.Everywhere fun m => ∀ e ∈ m.options, e.sites = []))

/-- Where the options of calls have no references, the route does not depend on which functions
have bodies. -/
theorem Node.Quiet.route_eq {n : Node} (h : n.Quiet) (f g : Nat → Bool) (p : Position) :
    n.route f p = n.route g p := by
  have hopt : n.Everywhere fun m => ∀ e ∈ m.options, ∀ p, e.route f p = .none :=
    h.imp fun m hm e he p => Node.route_eq_none (hm e he) f p
  obtain ⟨_, heq⟩ := n.route_invariant (Route.equal_invariant f g) hopt p p
  exact heq rfl

end ResolvedSql
