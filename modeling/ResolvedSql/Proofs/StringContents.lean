import ResolvedSql.Proofs.Blank
import ResolvedSql.Proofs.PathLocality
import ResolvedSql.Proofs.Similarity
/-!
What strings hold cannot change a query. Two statements that differ only in the contents of their
strings fail with the same error or have SQL with the same skeleton, and every quote that is opened
in the SQL of a statement is closed. Names of columns and tables may hold any character; names that
are not quoted, those of functions, parameters and `WITH` entries, must not hold quotes.
-/
set_option autoImplicit false

namespace ResolvedSql

open Text Render FunctionBody

theorem Literal.encode_agree (v : Value) (type : SqlType) :
    Agree AlikeText (encode v type) (encode v.blank type) := by
  have hself : Agree AlikeText (encode v type) (encode v type) := by
    cases h : encode v type with
    | error e => exact .error e
    | ok sql =>
      rcases encode_text h with hplain | ⟨lead, s, hlead, rfl⟩
      · exact .ok (.fixed (.of_isPlainText hplain))
      · exact .ok (AlikeText.append (.fixed (.of_isPlainText hlead)) (.literal s s))
  cases v with
  | string | array | struct =>
    rw [Value.blank, encode, encode]
    exact .ok (.literal _ _)
  | _ =>
    rw [Value.blank]
    · exact hself
    all_goals simp

theorem Config.hasNoQuote_of_isIdentifier {s : String} (h : isIdentifier s = true) :
    HasNoQuote s := by
  refine hasNoQuote_iff.2 fun c hc => ?_
  have hc : isIdentifierChar c = true := List.all_eq_true.1 (Bool.and_eq_true_iff.1 h).2 c hc
  refine Bool.eq_false_iff.2 fun hq => ?_
  simp only [isQuote, Bool.or_eq_true, decide_eq_true_eq] at hq
  rcases hq with (rfl | rfl) | rfl <;> revert hc <;> decide

/-- The names that a node writes as they are have no quotes. -/
def Node.NamesHaveNoQuote : Node → Prop
  | .parameter name _ _ => HasNoQuote name
  | .call function _ _ => ∀ bare ∈ Catalog.scalar.builtin? function, HasNoQuote bare
  | .aggregateCall function _ _ _ _ _ =>
    ∀ bare ∈ Catalog.aggregate.builtin? function, HasNoQuote bare
  | .analyticCall function _ _ _ _ => ∀ bare ∈ Catalog.window.builtin? function, HasNoQuote bare
  | .withScan entries _ _ => ∀ e ∈ entries, HasNoQuote e.name
  | .withRef name => HasNoQuote name
  | _ => True

instance : DecidablePred Node.NamesHaveNoQuote := fun n => by
  unfold Node.NamesHaveNoQuote
  split <;> infer_instance

theorem Render.filterKeyword_blank (n : Node) : filterKeyword n.blank = filterKeyword n := by
  cases n <;> rw [Node.blank.eq_def] <;> rfl

theorem Render.isConstant_blank (n : Node) : isConstant n.blank = isConstant n := by
  cases n <;> rw [Node.blank.eq_def] <;> rfl

theorem Render.argumentTable_blank (n : Node) : argumentTable n.blank = argumentTable n := by
  cases n <;> rw [Node.blank.eq_def] <;> rfl

/-- At any position and inside any scope, what the tree means does not depend on the strings of its
literals. -/
def Node.Blind (settings : Settings) (ρ : Naming) (n : Node) : Prop :=
  ∀ scope : Option AnalyticScope, (∀ s ∈ scope, s.Closed) → ∀ p,
    Meaning.Similar AlikeText (n.meaning settings ρ scope p) (n.blank.meaning settings ρ scope p)

section
variable {settings : Settings} {ρ : Naming}

theorem Node.blind_tableScan {table : String} {columns : List Column} :
    (Node.tableScan table columns).Blind settings ρ := by
  intro scope hs p
  rw [Node.blank, Node.meaning]
  refine .bind (.resolve ρ _) fun a b hab => ?_
  obtain ⟨rfl, -⟩ := hab
  exact .pure (.append (.fixed (by decide)) (.name _))

theorem Node.blind_filterScan {input condition : Node}
    (ih : ∀ e ∈ (Node.filterScan input condition).children, e.Blind settings ρ) :
    (Node.filterScan input condition).Blind settings ρ := by
  intro scope hs p
  rw [Node.blank, Node.meaning, Node.meaning, filterKeyword_blank]
  refine .bind (ih _ (by simp [Node.children]) scope hs _) fun a b hab => ?_
  refine .bind (ih _ (by simp [Node.children]) scope hs _) fun c d hcd => .pure ?_
  have hkeyword : HasNoQuote (filterKeyword input) := by
    unfold filterKeyword
    split <;> decide
  exact (((hab.append (.fixed (by decide))).append (.fixed hkeyword)).append
    (.fixed (by decide))).append hcd

theorem Node.blind_projectScan {columns : List Column} {computed : List ComputedColumn}
    {input : Node}
    (ih : ∀ e ∈ (Node.projectScan columns computed input).children, e.Blind settings ρ) :
    (Node.projectScan columns computed input).Blind settings ρ := by
  intro scope hs p
  simp only [Node.children, List.mem_append, List.mem_map, List.mem_singleton] at ih
  rw [Node.blank, Node.meaning, Node.meaning, List.map_map]
  refine .bind (.ownColumns (.list (fun c hc q => .compute c.column
    (ih _ (.inl ⟨c, hc, rfl⟩) scope hs q)) _ _)) fun x x' hx => ?_
  refine .bind (.ownColumns (ih _ (.inr rfl) scope hs _)) fun y y' hy => ?_
  exact .pure (.selectText (selectItems_alike hx.2 hy.2 columns) hy.1)

theorem Node.blind_aggregateScan {columns : List Column} {input : Node}
    {keys aggregates : List ComputedColumn}
    (ih : ∀ e ∈ (Node.aggregateScan columns input keys aggregates).children, e.Blind settings ρ) :
    (Node.aggregateScan columns input keys aggregates).Blind settings ρ := by
  intro scope hs p
  simp only [Node.children, List.mem_append, List.mem_map, List.mem_singleton] at ih
  rw [Node.blank, Node.meaning, Node.meaning, List.map_map, List.map_map]
  refine .bind (.list (fun c hc q => .compute c.column
    (ih _ (.inl (.inl ⟨c, hc, rfl⟩)) scope hs q)) _ _) fun _ _ _ => ?_
  refine .bind (.list (fun c hc q => .compute c.column
    (ih _ (.inl (.inr ⟨c, hc, rfl⟩)) scope hs q)) _ _) fun as bs hab => ?_
  refine .bind (ih _ (.inr rfl) scope hs _) fun a b h => ?_
  exact .pure (.groupText h hab)

theorem Node.blind_setOperation {code : Int32} {branches : List SetBranch}
    (ih : ∀ e ∈ (Node.setOperation code branches).children, e.Blind settings ρ) :
    (Node.setOperation code branches).Blind settings ρ := by
  intro scope hs p
  rw [Node.blank, Node.meaning, Node.meaning, List.map_map]
  refine .bind (.demand (.same _)) fun op op' hop => ?_
  subst hop
  refine .bind (.list (fun b hb => ih _ (List.mem_map.2 ⟨b, hb, rfl⟩) scope hs) _ _)
    fun as bs hab => .pure (.separated hab ?_)
  cases op <;> decide

theorem Node.blind_limitScan {input limit : Node} {offset : Option Node}
    (ih : ∀ e ∈ (Node.limitScan input limit offset).children, e.Blind settings ρ) :
    (Node.limitScan input limit offset).Blind settings ρ := by
  intro scope hs p
  rw [Node.blank.eq_def, Node.meaning.eq_def, Node.meaning.eq_def]
  refine .bind (ih _ (by simp [Node.children]) scope hs _) fun a b hab => ?_
  refine .bind (ih _ (by simp [Node.children]) scope hs _) fun c d hcd => ?_
  have hlimit := (hab.append (.fixed (a := " LIMIT ") (by decide))).append hcd
  cases offset with
  | none => exact .pure hlimit
  | some e =>
    refine .bind (ih e (by simp [Node.children]) scope hs _) fun x y hxy => ?_
    exact .pure ((hlimit.append (.fixed (by decide))).append hxy)

theorem Node.blind_withScan {entries : List NamedQuery} {query : Node} {recursive : Bool}
    (hn : (Node.withScan entries query recursive).NamesHaveNoQuote)
    (ih : ∀ e ∈ (Node.withScan entries query recursive).children, e.Blind settings ρ) :
    (Node.withScan entries query recursive).Blind settings ρ := by
  intro scope hs p
  simp only [Node.children, List.mem_append, List.mem_map, List.mem_singleton] at ih
  rw [Node.blank, Node.meaning, Node.meaning, List.map_map]
  split
  · exact .fail _
  · refine .bind (.list (R := AlikeText) (fun e he q => ?_) _ _) fun as bs hab => ?_
    · refine .bind (ih _ (.inl ⟨e, he, rfl⟩) scope hs q) fun a b hab => .pure ?_
      exact ((AlikeText.fixed (hn e he)).append (.fixed (by decide))).append hab
        |>.append (.fixed (by decide))
    · refine .bind (ih _ (.inr rfl) scope hs _) fun a b h => .pure ?_
      exact ((AlikeText.append (.fixed (by decide)) (.separated hab (by decide))).append
        (.fixed (by decide))).append h

theorem Node.blind_analyticScan {columns : List Column} {input : Node} {groups : List CallGroup}
    (ih : ∀ e ∈ (Node.analyticScan columns input groups).children, e.Blind settings ρ) :
    (Node.analyticScan columns input groups).Blind settings ρ := by
  intro scope hs p
  simp only [Node.children, List.mem_cons, List.mem_flatMap, List.mem_map] at ih
  rw [Node.blank, Node.meaning, Node.meaning]
  refine .bind (ih _ (.inl rfl) scope hs _) fun a b h => ?_
  refine .bind (.ownScope (.groups ?_ (fun g hg inner hinner q => ?_) _ _ .empty))
    fun x x' hx => .pure (.analyticText _ h hx.2)
  · intro g
    rfl
  rw [List.map_map]
  refine .list (fun c hc q => .compute c.column (ih _ (.inr ⟨g, hg, c, hc, rfl⟩) _ ?_ q)) _ _
  rintro _ ⟨⟩
  exact hinner

theorem Node.blind_insertStmt {table : String} {columns : List Column} {rows : List (List Node)}
    {query : Option Node}
    (ih : ∀ e ∈ (Node.insertStmt table columns rows query).children, e.Blind settings ρ) :
    (Node.insertStmt table columns rows query).Blind settings ρ := by
  intro scope hs p
  simp only [Node.children, List.mem_append, List.mem_flatten, Option.mem_toList] at ih
  rw [Node.blank.eq_def, Node.meaning.eq_def, Node.meaning.eq_def]
  simp only [List.map_map]
  refine .bind (.resolve ρ _) fun name name' hname => ?_
  obtain ⟨rfl, -⟩ := hname
  cases query with
  | some e =>
    cases rows with
    | cons => exact .fail _
    | nil =>
      refine .bind (ih e (.inr rfl) scope hs _) fun a b hab => ?_
      exact .pure (.insertText name columns hab)
  | none =>
    simp only [List.isEmpty_map]
    split
    · exact .fail _
    · refine .bind (.list (fun row hrow q => ?_) _ _) fun as bs hab =>
        .pure (.insertText name columns (.append (.fixed (by decide)) (.commas hab)))
      simp only [Function.comp_apply, List.map_map, List.length_map]
      exact .row _ _ _ (.list (fun e he => ih e (.inl ⟨row, hrow, he⟩) scope hs) _ _)

theorem Node.blind_deleteStmt {table : String} {condition : Option Node}
    (ih : ∀ e ∈ (Node.deleteStmt table condition).children, e.Blind settings ρ) :
    (Node.deleteStmt table condition).Blind settings ρ := by
  intro scope hs p
  rw [Node.blank.eq_def, Node.meaning.eq_def, Node.meaning.eq_def]
  refine .bind (.resolve ρ _) fun name name' hname => ?_
  obtain ⟨rfl, -⟩ := hname
  refine .bind (R := AlikeText) ?_ fun a b hab =>
    .pure (.whereText (.append (.fixed (by decide)) (.name name)) hab)
  cases condition with
  | none => exact .pure (.fixed (by decide))
  | some e => exact ih e (by simp [Node.children]) scope hs _

theorem Node.blind_updateStmt {table : String} {assignments : List Assignment}
    {condition : Option Node}
    (ih : ∀ e ∈ (Node.updateStmt table assignments condition).children, e.Blind settings ρ) :
    (Node.updateStmt table assignments condition).Blind settings ρ := by
  intro scope hs p
  simp only [Node.children, List.mem_append, List.mem_map, Option.mem_toList] at ih
  rw [Node.blank.eq_def, Node.meaning.eq_def, Node.meaning.eq_def]
  simp only [List.map_map, List.isEmpty_map]
  refine .bind (.resolve ρ _) fun name name' hname => ?_
  obtain ⟨rfl, -⟩ := hname
  split
  · exact .fail _
  · refine .bind (.list (R := AlikeText) (fun a ha q => ?_) _ _) fun as bs hab => ?_
    · refine .bind (ih _ (.inl ⟨a, ha, rfl⟩) scope hs q) fun x y hxy => .pure ?_
      exact ((AlikeText.name _).append (.fixed (by decide))).append hxy
    · refine .bind (R := AlikeText) ?_ fun a b h => .pure (.whereText
        (((AlikeText.append (.fixed (by decide)) (.name name)).append
          (.fixed (by decide))).append (.commas hab)) h)
      cases condition with
      | none => exact .pure (.fixed (by decide))
      | some e => exact ih e (.inr rfl) scope hs _

variable (hl : HasNoQuote settings.config.functionPrefix)
include hl

theorem Node.blind_call {function : String} {arguments : List Node} {type : SqlType}
    (hn : (Node.call function arguments type).NamesHaveNoQuote)
    (ih : ∀ e ∈ (Node.call function arguments type).children, e.Blind settings ρ) :
    (Node.call function arguments type).Blind settings ρ := by
  intro scope hs p
  rw [Node.blank, Node.meaning, Node.meaning, List.map_map]
  refine .bind (.list (fun e he => ih e he scope hs) _ _) fun as bs hab => ?_
  exact .callee hl ρ p hn type (fun name body => .demand (body.inline_agree name hab))
    fun name hname => .pure (.callText hname hab)

theorem Node.blind_aggregateCall {function : String} {arguments : List Node} {type : SqlType}
    {distinct : Bool} {orderBy : List OrderItem} {limit : Option Node}
    (hn : (Node.aggregateCall function arguments type distinct orderBy limit).NamesHaveNoQuote)
    (ih : ∀ e ∈ (Node.aggregateCall function arguments type distinct orderBy limit).children,
      e.Blind settings ρ) :
    (Node.aggregateCall function arguments type distinct orderBy limit).Blind settings ρ := by
  intro scope hs p
  simp only [Node.children, List.mem_append, Option.mem_toList] at ih
  rw [Node.blank.eq_def, Node.meaning.eq_def, Node.meaning.eq_def]
  simp only [List.map_map]
  refine .bind (.list (fun e he => ih e (.inl he) scope hs) _ _) fun as bs hab => ?_
  refine .callee hl ρ p hn type (fun name body => .demand (body.inline_agree name hab))
    fun name hname => ?_
  have hoptions := AlikeText.aggregateArguments hl distinct orderBy
  refine .bind (R := List.Forall₂ AlikeText) ?_ fun cs ds hcd =>
    .pure (.callText hname (List.rel_append (List.rel_append hab hoptions) hcd))
  cases limit with
  | none => exact .pure .nil
  | some e =>
    refine .bind (ih e (.inr rfl) scope hs _) fun a b hab => ?_
    exact .pure (.cons (.optionCall hl (by decide) (.cons hab .nil)) .nil)

theorem Node.blind_analyticCall {function : String} {arguments : List Node} {type : SqlType}
    {distinct : Bool} {frame : Option Frame}
    (hn : (Node.analyticCall function arguments type distinct frame).NamesHaveNoQuote)
    (ih : ∀ e ∈ (Node.analyticCall function arguments type distinct frame).children,
      e.Blind settings ρ) :
    (Node.analyticCall function arguments type distinct frame).Blind settings ρ := by
  intro scope hs p
  simp only [Node.children, List.mem_append] at ih
  rw [Node.blank.eq_def, Node.meaning.eq_def, Node.meaning.eq_def]
  cases scope with
  | none => exact .fail _
  | some around =>
    simp only [List.map_map]
    refine .bind (.list (R := AlikeText) (fun e he q => ?_) _ _) fun as bs hab => ?_
    · refine .bind (ih e (.inl he) _ hs q) fun a b hab => ?_
      simp only [isConstant_blank]
      refine .bind (.meet ?_) fun _ _ _ => .pure hab
      split
      · exact .nil
      · exact .cons hab .nil
    have htable : (arguments.map fun e => e.blank).foldl (fun table e => argumentTable e table)
        around.table = arguments.foldl (fun table e => argumentTable e table) around.table := by
      rw [List.foldl_map]
      simp only [argumentTable_blank]
    simp only [htable]
    cases arguments.foldl (fun table e => argumentTable e table) around.table with
    | none => exact .fail _
    | some table =>
      refine .callee hl ρ p hn type (fun name body => .demand (body.inline_agree name hab))
        fun name hname => ?_
      have hoptions := AlikeText.windowArguments hl distinct (hs around rfl)
      refine .bind (R := List.Forall₂ AlikeText) ?_ fun cs ds hcd =>
        .pure (.windowCallText hname (List.rel_append
          (List.rel_append (List.rel_append hab hoptions) hcd)
          (.cons (.optionCall hl (by decide) (.cons (.name _) .nil)) .nil)) table)
      cases frame with
      | none => exact .pure .nil
      | some frame =>
        obtain ⟨unit, first, last⟩ := frame
        simp only [Option.map_some, Option.getD_some, Frame.offsets, List.mem_append] at ih
        refine .frame hl unit ?_ ?_
        · cases first with
          | none => exact .pure .nil
          | some b =>
            obtain ⟨code, offset⟩ := b
            refine .boundary hl (by decide) code ?_
            cases offset with
            | none => exact .pure (.fixed (by decide))
            | some e => exact ih e (by simp) _ hs _
        · cases last with
          | none => exact .pure .nil
          | some b =>
            obtain ⟨code, offset⟩ := b
            refine .boundary hl (by decide) code ?_
            cases offset with
            | none => exact .pure (.fixed (by decide))
            | some e => exact ih e (by simp) _ hs _

theorem Node.blind_structField {operand : Node} {index : UInt64} {type : SqlType}
    (ih : ∀ e ∈ (Node.structField operand index type).children, e.Blind settings ρ) :
    (Node.structField operand index type).Blind settings ρ := by
  intro scope hs p
  rw [Node.blank, Node.meaning, Node.meaning]
  refine .bind (ih _ (by simp [Node.children]) scope hs _) fun a b hab => .pure ?_
  have hleft : HasNoQuote (settings.config.functionPrefix ++ "_get_struct_field_" ++
      type.family ++ "(") :=
    ((hl.append (by decide)).append (.of_isPlainText type.family_isPlainText)).append
      (by decide)
  exact (((AlikeText.fixed hleft).append hab).append (.fixed (by decide))).append
    (.fixed (.of_isPlainText (toString_isPlainText _))) |>.append (.fixed (by decide))

theorem Node.blind_arrayScan {input : Option Node} {array : Node} {element : Column}
    (ih : ∀ e ∈ (Node.arrayScan input array element).children, e.Blind settings ρ) :
    (Node.arrayScan input array element).Blind settings ρ := by
  intro scope hs p
  cases input with
  | some e =>
    rw [Node.blank, Node.meaning, Node.meaning]
    exact .fail _
  | none =>
    rw [Node.blank, Node.meaning, Node.meaning]
    refine .bind (ih _ (by simp [Node.children]) scope hs _) fun a b hab => ?_
    exact .pure (.arrayText hl _ hab)

theorem Node.blind (hencoder : settings.encoder = Literal.encode)
    (hρ : ∀ p, AlikeText (ρ.argument p) (ρ.argument p)) {n : Node}
    (hn : n.Everywhere NamesHaveNoQuote) : n.Blind settings ρ := by
  -- the two sides differ in literals only; every other node makes alike texts of alike texts
  induction n using Node.induction with
  | step n ih =>
    intro scope hs p
    have ih e he := ih e he (hn.children e he)
    have hn := hn.here
    cases n with
    | literal value type =>
      rw [Node.blank, Node.meaning, Node.meaning, hencoder]
      exact .demand (Literal.encode_agree value type)
    | parameter name position type =>
      rw [Node.blank, Node.meaning]
      exact .pure (.parameterText hn position)
    | columnRef column =>
      rw [Node.blank, Node.meaning]
      exact .pure (.name _)
    | argumentRef name type =>
      rw [Node.blank, Node.meaning]
      exact .pure (hρ p)
    | columnDefault =>
      rw [Node.blank, Node.meaning]
      exact .pure (.fixed (by decide))
    | singleRow =>
      rw [Node.blank, Node.meaning]
      exact .pure (.fixed (by decide))
    | tableScan => exact blind_tableScan scope hs p
    | withRef name =>
      rw [Node.blank, Node.meaning]
      exact .pure (.append (.fixed (by decide)) (.fixed hn))
    | unsupported kind =>
      rw [Node.blank, Node.meaning]
      exact .fail _
    | call => exact blind_call hl hn ih scope hs p
    | aggregateCall => exact blind_aggregateCall hl hn ih scope hs p
    | analyticCall => exact blind_analyticCall hl hn ih scope hs p
    | structField => exact blind_structField hl ih scope hs p
    | subquery kind query type =>
      rw [Node.blank, Node.meaning, Node.meaning]
      refine .bind (ih _ (by simp [Node.children]) scope hs _) fun a b hab => ?_
      exact .pure (.subqueryText kind hab)
    | arrayScan => exact blind_arrayScan hl ih scope hs p
    | filterScan => exact blind_filterScan ih scope hs p
    | projectScan => exact blind_projectScan ih scope hs p
    | aggregateScan => exact blind_aggregateScan ih scope hs p
    | setOperation => exact blind_setOperation ih scope hs p
    | orderByScan input items =>
      rw [Node.blank, Node.meaning, Node.meaning]
      refine .bind (ih _ (by simp [Node.children]) scope hs _) fun a b hab => ?_
      exact .pure (.orderByText hab items)
    | limitScan => exact blind_limitScan ih scope hs p
    | withScan => exact blind_withScan hn ih scope hs p
    | analyticScan => exact blind_analyticScan ih scope hs p
    | queryStmt columns query =>
      rw [Node.blank, meaning_queryStmt, meaning_queryStmt]
      exact ih _ (by simp [Node.children]) scope hs _
    | insertStmt => exact blind_insertStmt ih scope hs p
    | deleteStmt => exact blind_deleteStmt ih scope hs p
    | updateStmt => exact blind_updateStmt ih scope hs p

end

theorem Node.namesHaveNoQuote_blank (n : Node) : n.blank.NamesHaveNoQuote ↔ n.NamesHaveNoQuote := by
  cases n <;> rw [Node.blank.eq_def] <;> simp [NamesHaveNoQuote]

namespace Statement

/-- The references that rendering the statement resolves before it ends, with their names. -/
def resolved (s : Statement) (settings : Settings) : List (Site × String) :=
  (s.root.meaning settings (s.naming settings) none []).effects.resolved

theorem consumed_eq (s : Statement) (settings : Settings) :
    s.consumed settings = (s.resolved settings).length := by
  obtain ⟨⟨log, hrun⟩, hres⟩ := s.realizes settings rfl (s.naming_agrees settings)
  have hcount : (s.initialState.after (s.root.meaning settings (s.naming settings) none []).effects
      log).cursor.consumed = (s.resolved settings).length := by
    rw [Cursor.consumed, State.index_after hres.bound]
    exact Nat.zero_add _
  unfold consumed
  rw [hrun, Meaning.finish]
  cases (s.root.meaning settings (s.naming settings) none []).result with
  | ok sql => exact hcount
  | error e => exact hcount

/-- A statement has the SQL of its blank form but for what stands in single quotes, or fails with
the same error, and both resolve the same references. It is enough to know the names of the
functions that either of them resolves. -/
theorem toSql_blank {s : Statement} {settings : Settings}
    (hencoder : settings.encoder = Literal.encode)
    (hlead : Config.isIdentifier settings.config.functionPrefix = true)
    (hnames : s.root.Everywhere Node.NamesHaveNoQuote)
    (h : (∀ r ∈ s.resolved settings, r.1.kind = .function → HasNoQuote r.2) ∨
      ∀ r ∈ s.blank.resolved settings, r.1.kind = .function → HasNoQuote r.2) :
    Agree AlikeText (s.toSql settings).result (s.blank.toSql settings).result ∧
      s.resolved settings = s.blank.resolved settings := by
  have hmark : AlikeText "?" "?" := .fixed (by decide)
  have hblind : s.root.Blind settings (s.naming settings) :=
    Node.blind (Config.hasNoQuote_of_isIdentifier hlead) hencoder (fun _ => hmark) hnames
  have hsimilar := hblind none (by simp) []
  unfold resolved at *
  rw [s.toSql_result settings rfl (s.naming_agrees settings),
    s.blank.toSql_result settings rfl (s.blank.naming_agrees settings)]
  rw [s.naming_blank] at *
  obtain ⟨hagree, heffects⟩ := hsimilar h
  exact ⟨hagree, heffects.resolved⟩

/-- Every quote that is opened in the SQL of a statement is closed. -/
theorem toSql_closes_quotes (s : Statement) (settings : Settings) (sql : String)
    (hencoder : settings.encoder = Literal.encode)
    (hlead : Config.isIdentifier settings.config.functionPrefix = true)
    (hnames : s.root.Everywhere Node.NamesHaveNoQuote)
    (hfunctions : ∀ r ∈ s.resolved settings, r.1.kind = .function → HasNoQuote r.2)
    (h : (s.toSql settings).result = .ok sql) : (segments sql.toList).2 = [] := by
  obtain ⟨hagree, -⟩ := toSql_blank hencoder hlead hnames (.inl hfunctions)
  rw [h] at hagree
  obtain ⟨blank, -, halike⟩ := hagree.of_ok
  exact halike.closed

def selectString (text : String) : Statement where
  declaredPath := ["p"]
  namePaths := [["f"], ["it's"]]
  root := .projectScan [⟨"`", "", .scalar .string⟩]
    [⟨⟨"`", "", .scalar .string⟩, .call "f" [.literal (.string text) (.scalar .string)]
      (.scalar .string)⟩]
    (.tableScan "t" [])

def withBody : Settings := { registry := Keyed.empty.insert "p_f" ⟨"trim(?, '\"')"⟩ }

theorem selectString_closes_quotes :
    ∃ sql, ((selectString "O'Neill").toSql withBody).result = .ok sql ∧
      (segments sql.toList).2 = [] := by
  have hsql : ((selectString "O'Neill").toSql withBody).result =
      .ok "SELECT ( trim('O''Neill', '\"') ) AS ```` FROM `p_it's`" := by decide +kernel
  exact ⟨_, hsql,
    toSql_closes_quotes _ _ _ rfl (by decide) (by decide +kernel) (by decide +kernel) hsql⟩

/-- Statements that differ only in the contents of their strings take the same number of paths, and
fail with the same error or have SQL with the same skeleton. -/
theorem toSql_skeleton_eq (s t : Statement) (settings : Settings)
    (hencoder : settings.encoder = Literal.encode) (hconfig : settings.config.validate = .ok ())
    (hnames : s.root.Everywhere Node.NamesHaveNoQuote)
    (hfunctions : ∀ r ∈ s.resolved settings, r.1.kind = .function → HasNoQuote r.2)
    (h : s.blank = t.blank) :
    s.consumed settings = t.consumed settings ∧
      ((∃ e, (s.toSql settings).result = .error e ∧ (t.toSql settings).result = .error e) ∨
        ∃ a b, (s.toSql settings).result = .ok a ∧ (t.toSql settings).result = .ok b ∧
          skeleton a = skeleton b) := by
  have hlead := Config.isIdentifier_of_validate hconfig
  have hnames' : t.root.Everywhere Node.NamesHaveNoQuote := by
    have hblank : t.root.blank = s.root.blank := congrArg root h.symm
    rw [← Node.Everywhere.blank_iff Node.namesHaveNoQuote_blank, hblank,
      Node.Everywhere.blank_iff Node.namesHaveNoQuote_blank]
    exact hnames
  obtain ⟨hagree, hresolved⟩ := toSql_blank hencoder hlead hnames (.inl hfunctions)
  rw [h] at hagree hresolved
  -- nothing is assumed about the names `t` resolves: its blank form resolves those of `s`
  obtain ⟨hagree', hresolved'⟩ :=
    toSql_blank hencoder hlead hnames' (.inr (hresolved ▸ hfunctions))
  refine ⟨by rw [consumed_eq, consumed_eq, hresolved, hresolved'], ?_⟩
  cases hs : (s.toSql settings).result with
  | error e =>
    rw [hs] at hagree
    rw [hagree.of_error] at hagree'
    exact .inl ⟨e, rfl, hagree'.symm.of_error⟩
  | ok a =>
    rw [hs] at hagree
    obtain ⟨blank, hblank, ha⟩ := hagree.of_ok
    rw [hblank] at hagree'
    obtain ⟨b, hb, halike⟩ := hagree'.symm.of_ok
    exact .inr ⟨a, b, rfl, hb, ha.skeleton_eq.trans halike.skeleton_eq.symm⟩

theorem selectString_skeleton_eq :
    ∃ a b, ((selectString "O'Neill").toSql withBody).result = .ok a ∧
      ((selectString "' OR 1=1 --?").toSql withBody).result = .ok b ∧ a ≠ b ∧
      skeleton a = skeleton b := by
  have hs : ((selectString "O'Neill").toSql withBody).result =
      .ok "SELECT ( trim('O''Neill', '\"') ) AS ```` FROM `p_it's`" := by decide +kernel
  have ht : ((selectString "' OR 1=1 --?").toSql withBody).result =
      .ok "SELECT ( trim(''' OR 1=1 --?', '\"') ) AS ```` FROM `p_it's`" := by decide +kernel
  have hblank : (selectString "O'Neill").blank = (selectString "' OR 1=1 --?").blank := by
    simp [selectString, blank, Node.blank, Value.blank]
  obtain ⟨-, ⟨e, he, -⟩ | ⟨a, b, ha, hb, hab⟩⟩ := toSql_skeleton_eq _ _ withBody rfl (by decide)
    (by decide +kernel) (by decide +kernel) hblank
  · rw [hs] at he
    simp at he
  · refine ⟨a, b, ha, hb, ?_, hab⟩
    rw [hs] at ha
    rw [ht] at hb
    cases ha
    cases hb
    decide

end Statement
end ResolvedSql
