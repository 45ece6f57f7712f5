import ResolvedSql.Proofs.LiteralText
import ResolvedSql.Proofs.NameAssignment
/-!
Calling a compiled function is substitution. The body of a scalar expression has one mark for each
argument reference, and a call puts each argument where rendering the expression would have put
it. Marks and quotes inside literals, names, or bodies that were themselves put in place are never
mistaken for those of the expression.
-/
set_option autoImplicit false

namespace ResolvedSql

open Text Render FunctionBody

/-- `b` is `a` with the arguments in place of its marks, one after the other. -/
inductive Fills : List Char → List String → List Char → Prop
  | nil : Fills [] [] []
  | plain {c : Char} {a b : List Char} {args : List String} (hc : isPlain c = true)
      (h : Fills a args b) : Fills (c :: a) args (c :: b)
  | part {q : Char} {body a b : List Char} {args : List String} (hq : isQuote q = true)
      (hb : q ∉ body) (h : Fills a args b) : Fills (part q body ++ a) args (part q body ++ b)
  | mark {a b : List Char} {args : List String} (arg : String) (h : Fills a args b) :
      Fills ('?' :: a) (arg :: args) (arg.toList ++ b)

namespace Fills

theorem append {a b c d : List Char} {xs ys : List String} (h : Fills a xs b) (h' : Fills c ys d) :
    Fills (a ++ c) (xs ++ ys) (b ++ d) := by
  induction h with
  | nil => exact h'
  | plain hc _ ih => exact .plain hc ih
  | part hq hb _ ih =>
    rw [List.append_assoc, List.append_assoc]
    exact .part hq hb ih
  | mark arg _ ih =>
    rw [List.append_assoc]
    exact .mark arg ih

theorem plainChars {cs : List Char} (h : ∀ c ∈ cs, isPlain c = true) : Fills cs [] cs := by
  induction cs with
  | nil => exact .nil
  | cons c cs ih =>
    exact .plain (h c (List.mem_cons_self ..)) (ih fun d hd => h d (List.mem_cons_of_mem _ hd))

theorem plainText {s : String} (h : IsPlainText s) : Fills s.toList [] s.toList :=
  plainChars (isPlainText_iff.1 h)

theorem surround {a b left right : String} {xs : List String} (h : Fills a.toList xs b.toList)
    (hl : IsPlainText left) (hr : IsPlainText right) :
    Fills (left ++ a ++ right).toList xs (left ++ b ++ right).toList := by
  have := ((plainText hl).append h).append (plainText hr)
  simpa using this

theorem quoted {q : Char} (hq : isQuote q = true) (s : String) :
    Fills (quoted q s).toList [] (quoted q s).toList := by
  obtain ⟨bodies, -, hbodies, htext⟩ := quoted_eq_parts q s
  rw [htext]
  clear htext
  induction bodies with
  | nil => exact .nil
  | cons body bodies ih =>
    rw [List.flatMap_cons]
    exact .part hq (hbodies body (List.mem_cons_self ..))
      (ih fun b hb => hbodies b (List.mem_cons_of_mem _ hb))

theorem literal {v : Value} {type : SqlType} {sql : String} (h : Literal.encode v type = .ok sql) :
    Fills sql.toList [] sql.toList := by
  rcases Literal.encode_text h with hplain | ⟨lead, s, hlead, rfl⟩
  · exact plainText hplain
  · rw [String.toList_append]
    exact (plainText hlead).append (quoted (by decide) s)

theorem segments {a b : List Char} {args : List String} (h : Fills a args b) :
    (segments a).2 = [] ∧ placeholders (segments a).1 = args.length ∧
      splice (segments a).1 args = b := by
  induction h with
  | nil => simp [placeholders, splice]
  | plain hc _ ih =>
    rw [segments_plain hc, placeholders_consPlain, splice_consPlain]
    exact ⟨ih.1, ih.2.1, by rw [ih.2.2]⟩
  | part hq hb _ ih =>
    rw [segments_part hq hb]
    refine ⟨ih.1, ?_, ?_⟩
    · rw [← ih.2.1]
      simp [placeholders]
    · rw [splice, ih.2.2]
  | mark arg _ ih =>
    rw [segments_mark]
    refine ⟨ih.1, ?_, ?_⟩
    · rw [List.length_cons, ← ih.2.1]
      simp [placeholders]
    · rw [splice, ih.2.2]

end Fills

inductive FillsAll : List String → List String → List String → Prop
  | nil : FillsAll [] [] []
  | cons {a b : String} {as bs xs ys : List String} (h : Fills a.toList xs b.toList)
      (hs : FillsAll as ys bs) : FillsAll (a :: as) (xs ++ ys) (b :: bs)

namespace FillsAll

theorem length_eq {as xs bs : List String} (h : FillsAll as xs bs) : as.length = bs.length := by
  induction h with
  | nil => rfl
  | cons _ _ ih => simp [ih]

theorem separated {sep : String} (hsep : IsPlainText sep) {as xs bs : List String}
    (h : FillsAll as xs bs) : Fills (separated sep as).toList xs (separated sep bs).toList := by
  induction h with
  | nil => exact .nil
  | cons ha hs ih =>
    cases hs with
    | nil => simpa [Text.separated] using ha
    | cons hb hs =>
      have := ha.append ((Fills.plainText hsep).append ih)
      simpa [Text.separated] using this

theorem splice {ss : List Segment} (hss : ∀ s ∈ ss, s.WellFormed) {as xs bs : List String}
    (h : FillsAll as xs bs) (hp : placeholders ss = as.length) :
    Fills (splice ss as) xs (splice ss bs) := by
  induction ss generalizing as xs bs with
  | nil =>
    cases h with
    | nil => exact .nil
    | cons => simp [placeholders] at hp
  | cons s ss ih =>
    have htail := fun s hs => hss s (List.mem_cons_of_mem _ hs)
    cases s with
    | placeholder =>
      cases h with
      | nil => simp [placeholders] at hp
      | cons ha hs =>
        refine ha.append (ih htail hs ?_)
        simpa [placeholders] using hp
    | text cs =>
      have hrest := ih htail h (by simpa [placeholders] using hp)
      rcases hss _ (List.mem_cons_self ..) with hcs | ⟨q, body, hq, hb, rfl⟩
      · exact (Fills.plainChars hcs).append hrest
      · exact .part hq hb hrest

end FillsAll

mutual
/-- The positions of the argument references of a scalar expression, from left to right. -/
def Node.marks (p : Position) : Node → List Position
  | .argumentRef _ _ => [p]
  | .call _ arguments _ => Node.marksAll (0 :: p) 0 arguments
  | .structField operand _ _ => operand.marks (0 :: p)
  | _ => []
def Node.marksAll (p : Position) (j : Nat) : List Node → List Position
  | [] => []
  | n :: r => n.marks (j :: p) ++ Node.marksAll p (j + 1) r
end

theorem Node.marksAll_distinct {ns : List Node}
    (h : ∀ n ∈ ns, ∀ p, (n.marks p).Nodup ∧ ∀ q ∈ n.marks p, p <:+ q) (p : Position) (j : Nat) :
    (Node.marksAll p j ns).Nodup ∧ ∀ q ∈ Node.marksAll p j ns, ∃ k, j ≤ k ∧ (k :: p) <:+ q := by
  induction ns generalizing j with
  | nil => simp [Node.marksAll]
  | cons n ns ih =>
    obtain ⟨hn, hunder⟩ := h n (List.mem_cons_self ..) (j :: p)
    obtain ⟨hns, hrest⟩ := ih (fun n hn => h n (List.mem_cons_of_mem _ hn)) (j + 1)
    rw [Node.marksAll]
    refine ⟨List.nodup_append.2 ⟨hn, hns, ?_⟩, fun q hq => ?_⟩
    · rintro a ha _ hb rfl
      obtain ⟨k, hk, hkq⟩ := hrest a hb
      have hjk : some j = some k := Position.through_unique (hunder a ha) hkq
      simp only [Option.some.injEq] at hjk
      omega
    · rcases List.mem_append.1 hq with hq | hq
      · exact ⟨j, Nat.le_refl j, hunder q hq⟩
      · obtain ⟨k, hk, hkq⟩ := hrest q hq
        exact ⟨k, by omega, hkq⟩

theorem Node.marks_distinct (n : Node) :
    ∀ p, (n.marks p).Nodup ∧ ∀ q ∈ n.marks p, p <:+ q := by
  induction n using Node.induction with
  | step n ih =>
    intro p
    cases n with
    | argumentRef name type => simp [Node.marks]
    | call function arguments type =>
      obtain ⟨hnodup, hunder⟩ := Node.marksAll_distinct ih (0 :: p) 0
      rw [Node.marks]
      refine ⟨hnodup, fun q hq => ?_⟩
      obtain ⟨k, -, hk⟩ := hunder q hq
      exact (List.suffix_append [k, 0] p).trans hk
    | structField operand index type =>
      obtain ⟨hnodup, hunder⟩ := ih operand (by simp [Node.children]) (0 :: p)
      rw [Node.marks]
      exact ⟨hnodup, fun q hq => (List.suffix_cons 0 p).trans (hunder q hq)⟩
    | _ => simp [Node.marks]

/-- The nodes of scalar expressions: literals, columns, arguments, named parameters, defaults,
field accesses and scalar calls. -/
def Node.isScalar : Node → Bool
  | .literal _ _ | .columnRef _ | .argumentRef _ _ | .columnDefault | .structField _ _ _
  | .call _ _ _ => true
  | .parameter name position _ => position.isNone || name ≠ ""
  | _ => false

/-- A builtin or a parameter is called by plain text. -/
def Node.hasPlainName : Node → Bool
  | .parameter name _ _ => name.toList.all isPlain
  | .call function _ _ =>
    match Catalog.scalar.builtin? function with
    | some bare => bare.toList.all isPlain
    | none => true
  | _ => true

theorem Catalog.mangle_isPlainText {lead bare : String} (hlead : IsPlainText lead)
    (hbare : IsPlainText bare) (type : SqlType) :
    IsPlainText (Catalog.scalar.mangle lead bare type) :=
  ((hlead.append (by decide)).append hbare).append (by decide) |>.append type.family_isPlainText

section
variable {settings : Settings} {ρ : Naming} (argument : Position → String)

theorem FillsAll.inline {function sql : String} {body : FunctionBody} {as xs bs : List String}
    (h : FillsAll as xs bs) (hsql : body.inline function as = .ok sql) :
    ∃ text, body.inline function bs = .ok text ∧ Fills sql.toList xs text.toList := by
  obtain ⟨ss, hscan, hp, rfl⟩ := inline_eq_ok.1 hsql
  refine ⟨_, inline_eq_ok.2 ⟨ss, hscan, h.length_eq ▸ hp, rfl⟩, ?_⟩
  refine .surround ?_ (by decide) (by decide)
  simpa using h.splice (scan_wellFormed hscan) hp

theorem calleeMeaning_isPlainText (hlead : IsPlainText settings.config.functionPrefix)
    (hnames : ∀ p name, ρ.reference ⟨.function, p⟩ = .ok name → IsPlainText name) {p : Position}
    {function name : String} {arguments : List Node} {type : SqlType}
    (hplain : (Node.call function arguments type).hasPlainName = true)
    (h : (calleeMeaning settings ρ p function .scalar type).result = .ok (.named name)) :
    IsPlainText name := by
  unfold calleeMeaning at h
  unfold Node.hasPlainName at hplain
  cases hb : Catalog.scalar.builtin? function with
  | some bare =>
    simp only [hb] at h hplain
    cases h
    exact Catalog.mangle_isPlainText hlead hplain type
  | none =>
    simp only [hb] at h
    obtain ⟨user, huser, hcallee⟩ := Meaning.result_bind.1 h
    rw [Meaning.resolve_result] at huser
    have hname : user = name := by
      simp only [Settings.userCallee, Pure.pure, Except.ok.injEq] at hcallee
      cases hfind : settings.registry.find? user with
      | none => simpa [hfind] using hcallee
      | some body => simp [hfind] at hcallee
    exact hname ▸ hnames p user huser

/-- The text of an expression with its arguments filled in is its text with the marks filled in. -/
def Node.FillsMarks (settings : Settings) (ρ : Naming) (argument : Position → String) (e : Node) :
    Prop :=
  ∀ p sql, (e.meaning settings ρ none p).result = .ok sql →
    ∃ text, (e.meaning settings { ρ with argument } none p).result = .ok text ∧
      Fills sql.toList ((e.marks p).map argument) text.toList

theorem Node.fills_list {es : List Node}
    (h : ∀ e ∈ es, e.FillsMarks settings ρ argument) (p : Position) (j : Nat) {sqls : List String}
    (hsqls : (Meaning.list p j (es.map fun e q => e.meaning settings ρ none q)).result = .ok sqls) :
    ∃ texts, (Meaning.list p j (es.map fun e q =>
        e.meaning settings { ρ with argument } none q)).result = .ok texts ∧
      FillsAll sqls ((Node.marksAll p j es).map argument) texts := by
  induction es generalizing j sqls with
  | nil =>
    cases hsqls
    exact ⟨[], rfl, .nil⟩
  | cons e es ih =>
    obtain ⟨sql, hsql, hrest⟩ := Meaning.result_bind.1 hsqls
    obtain ⟨rest, hlist, hcons⟩ := Meaning.result_bind.1 hrest
    cases hcons
    obtain ⟨text, htext, hfills⟩ := h e (List.mem_cons_self ..) (j :: p) sql hsql
    obtain ⟨texts, htexts, hall⟩ := ih (fun e he => h e (List.mem_cons_of_mem _ he)) (j + 1) hlist
    refine ⟨text :: texts, ?_, ?_⟩
    · exact Meaning.result_bind.2 ⟨text, htext, Meaning.result_bind.2 ⟨texts, htexts, rfl⟩⟩
    · rw [Node.marksAll, List.map_append]
      exact .cons hfills hall

theorem Node.fills_parameter {name : String} {position : Option UInt32} {type : SqlType}
    (hscalar : (Node.parameter name position type).isScalar = true)
    (hplain : (Node.parameter name position type).hasPlainName = true) :
    (Node.parameter name position type).FillsMarks settings ρ argument := by
  intro p sql hsql
  have htext : parameterText name position = "@" ++ name := by
    cases position with
    | none => rfl
    | some k =>
      have hname : name ≠ "" := by simpa [Node.isScalar] using hscalar
      simp [parameterText, hname]
  rw [Node.meaning, htext] at hsql ⊢
  cases hsql
  have hname : IsPlainText name := hplain
  have hat : IsPlainText ("@" ++ name) := .append (by decide) hname
  refine ⟨_, rfl, ?_⟩
  rw [Node.marks]
  · exact .plainText hat
  all_goals simp

theorem Node.fills_call {function : String} {arguments : List Node} {type : SqlType}
    (hlead : IsPlainText settings.config.functionPrefix)
    (hnames : ∀ p name, ρ.reference ⟨.function, p⟩ = .ok name → IsPlainText name)
    (hplain : (Node.call function arguments type).hasPlainName = true)
    (ih : ∀ e ∈ (Node.call function arguments type).children,
      e.FillsMarks settings ρ argument) :
    (Node.call function arguments type).FillsMarks settings ρ argument := by
  intro p sql hsql
  rw [Node.meaning] at hsql ⊢
  obtain ⟨args, hargs, hcall⟩ := Meaning.result_bind.1 hsql
  obtain ⟨callee, hcallee, hcall⟩ := Meaning.result_bind.1 hcall
  obtain ⟨texts, htexts, hfills⟩ :=
    Node.fills_list argument ih (0 :: p) 0 hargs
  rw [Node.marks]
  cases callee with
  | inlined name body =>
    obtain ⟨text, htext, hfills⟩ := hfills.inline hcall
    exact ⟨text, Meaning.result_bind.2 ⟨texts, htexts,
      Meaning.result_bind.2 ⟨_, hcallee, htext⟩⟩, hfills⟩
  | named name =>
    cases hcall
    have hname := calleeMeaning_isPlainText hlead hnames hplain hcallee
    refine ⟨callText name texts, Meaning.result_bind.2 ⟨texts, htexts,
      Meaning.result_bind.2 ⟨_, hcallee, rfl⟩⟩, ?_⟩
    exact .surround (hfills.separated (by decide)) (hname.append (by decide)) (by decide)

theorem Node.fills_structField {operand : Node} {index : UInt64} {type : SqlType}
    (hlead : IsPlainText settings.config.functionPrefix)
    (ih : ∀ e ∈ (Node.structField operand index type).children,
      e.FillsMarks settings ρ argument) :
    (Node.structField operand index type).FillsMarks settings ρ argument := by
  intro p sql hsql
  rw [Node.meaning] at hsql ⊢
  obtain ⟨inner, hinner, hfield⟩ := Meaning.result_bind.1 hsql
  cases hfield
  obtain ⟨text, htext, hfills⟩ := ih operand (by simp [Node.children]) (0 :: p) inner hinner
  refine ⟨_, Meaning.result_bind.2 ⟨text, htext, rfl⟩, ?_⟩
  rw [Node.marks]
  have hleft : IsPlainText (settings.config.functionPrefix ++ "_get_struct_field_" ++
      type.family ++ "(") :=
    ((hlead.append (by decide)).append type.family_isPlainText).append (by decide)
  have hright : IsPlainText (", " ++ (toString index.toNat ++ ")")) :=
    .append (by decide) ((toString_isPlainText _).append (by decide))
  simpa only [String.append_assoc] using hfills.surround hleft hright

theorem Node.fills (hencoder : settings.encoder = Literal.encode)
    (hlead : IsPlainText settings.config.functionPrefix) (hmark : ρ.argument = fun _ => "?")
    (hnames : ∀ p name, ρ.reference ⟨.function, p⟩ = .ok name → IsPlainText name) (n : Node)
    (hscalar : n.Everywhere fun m => m.isScalar = true)
    (hplain : n.Everywhere fun m => m.hasPlainName = true) : n.FillsMarks settings ρ argument := by
  induction n using Node.induction with
  | step n ih =>
    intro p sql hsql
    have ih e he := ih e he (hscalar.children e he) (hplain.children e he)
    have hscalar := hscalar.here
    have hplain := hplain.here
    cases n with
    | literal value type =>
      rw [Node.meaning] at hsql ⊢
      have hliteral : settings.encoder value type = .ok sql := hsql
      rw [hencoder] at hliteral
      exact ⟨sql, hsql, by simpa [Node.marks] using .literal hliteral⟩
    | parameter => exact fills_parameter argument hscalar hplain p sql hsql
    | columnRef column =>
      rw [Node.meaning] at hsql ⊢
      cases hsql
      exact ⟨_, rfl, by simpa [Node.marks] using .quoted (by decide) column.name⟩
    | argumentRef name type =>
      rw [Node.meaning, hmark] at hsql
      cases hsql
      rw [Node.meaning]
      refine ⟨_, rfl, ?_⟩
      have := Fills.mark (argument p) .nil
      simpa [Node.marks] using this
    | call => exact fills_call argument hlead hnames hplain ih p sql hsql
    | structField => exact fills_structField argument hlead ih p sql hsql
    | columnDefault =>
      rw [Node.meaning] at hsql ⊢
      cases hsql
      have hnull : IsPlainText "NULL" := by decide
      exact ⟨_, rfl, by simpa [Node.marks] using .plainText hnull⟩
    | _ => simp [Node.isScalar] at hscalar

end

theorem Node.quiet_of_isScalar {n : Node} (h : n.Everywhere fun m => m.isScalar = true) :
    n.Quiet := by
  refine h.imp fun m hm => ?_
  cases m with
  | aggregateCall | analyticCall => simp [Node.isScalar] at hm
  | _ => simp [Node.options]

def Naming.fill (ρ : Naming) (marks : List Position) (args : List String) : Naming :=
  { ρ with argument := fun p => args.getD (marks.idxOf p) "?" }

theorem Naming.fill_marks (ρ : Naming) {marks : List Position} {args : List String}
    (hnodup : marks.Nodup) (hlen : args.length = marks.length) :
    marks.map (ρ.fill marks args).argument = args := by
  refine List.ext_getElem (by simp [hlen]) fun i hi hi' => ?_
  simp [Naming.fill, hnodup.idxOf_getElem, hi']

namespace Statement

/-- Compiling a scalar expression into a function body and calling it is substitution: the body has
a mark for each argument reference, and a call with as many arguments is the expression rendered
with these arguments, in parentheses. -/
theorem functionBody_inline_substitutes (s : Statement) (settings : Settings) (body : FunctionBody)
    (hscalar : s.root.Everywhere fun n => n.isScalar = true)
    (hplain : s.root.Everywhere fun n => n.hasPlainName = true)
    (hencoder : settings.encoder = Literal.encode)
    (hlead : IsPlainText settings.config.functionPrefix)
    (hnames : ∀ name ∈ s.names.take s.root.sites.length, IsPlainText name)
    (h : s.functionBody settings = .ok body) (function : String) :
    (∃ ss, body.scan function = .ok ss ∧ placeholders ss = (s.root.marks []).length) ∧
    ∀ args : List String,
      (args.length = (s.root.marks []).length →
        ∃ text, (s.root.meaning settings ((s.naming settings).fill (s.root.marks []) args) none
            []).result = .ok text ∧
          body.inline function args = .ok ("( " ++ text ++ " )")) ∧
      (args.length ≠ (s.root.marks []).length →
        body.inline function args =
          .error (.arityMismatch function (s.root.marks []).length args.length)) := by
  have hreference : ∀ p name, (s.naming settings).reference ⟨.function, p⟩ = .ok name →
      IsPlainText name := by
    intro p name hname
    obtain ⟨k, hk, hname⟩ := naming_eq_ok hname
    rw [visited_of_quiet settings (Node.quiet_of_isScalar hscalar)] at hk
    have hlt : k < s.root.sites.length := (List.getElem?_eq_some_iff.1 hk).1
    refine hnames name (List.mem_of_getElem? (i := k) ?_)
    rw [List.getElem?_take_of_lt hlt, hname]
  have hmeaning : (s.root.meaning settings (s.naming settings) none []).result =
      .ok body.text := by
    rw [← s.toSql_result settings rfl (s.naming_agrees settings)]
    unfold functionBody at h
    cases hsql : (s.toSql settings).result with
    | error e => simp [hsql, Except.map] at h
    | ok sql =>
      simp only [hsql, Except.map, Except.ok.injEq] at h
      rw [← h]
  -- whatever the arguments are, the same marks are filled, so the scan does not depend on them
  have hfills argument :=
    s.root.fills argument hencoder hlead rfl hreference hscalar hplain [] body.text hmeaning
  obtain ⟨_, -, hempty⟩ := hfills fun _ => ""
  obtain ⟨hrest, hcount, -⟩ := hempty.segments
  rw [List.length_map] at hcount
  have hscan : body.scan function = .ok (segments body.text.toList).1 :=
    scan_eq_ok.2 (Prod.ext rfl hrest)
  refine ⟨⟨_, hscan, hcount⟩, fun args => ⟨fun hlen => ?_, fun hlen => ?_⟩⟩
  · obtain ⟨text, htext, hfilled⟩ :=
      hfills ((s.naming settings).fill (s.root.marks []) args).argument
    rw [Naming.fill_marks _ (s.root.marks_distinct []).1 hlen] at hfilled
    refine ⟨text, htext, inline_eq_ok.2 ⟨_, hscan, hcount.trans hlen.symm, ?_⟩⟩
    rw [hfilled.segments.2.2, String.ofList_toList]
  · rw [inline_eq_arityMismatch hscan (by rw [hcount]; exact hlen.symm), hcount]

def oneFunction : Settings := { registry := (∅ : Registry).insert "g" ⟨"? || '?'"⟩ }

def nestedCall : Statement where
  declaredPath := []
  namePaths := [["g"]]
  root := .call "concat" [.argumentRef "x" (.scalar .string),
    .literal (.string "who's?") (.scalar .string),
    .call "g" [.argumentRef "y" (.scalar .string)] (.scalar .string)] (.scalar .string)

theorem nestedCall_inline_substitutes :
    ∃ text, (nestedCall.root.meaning oneFunction
        ((nestedCall.naming oneFunction).fill (nestedCall.root.marks []) ["a", "b?"]) none
        []).result = .ok text ∧
      FunctionBody.inline ⟨"bqlite_concat_string(?,'who''s?',( ? || '?' ))"⟩ "h" ["a", "b?"] =
        .ok ("( " ++ text ++ " )") := by
  have hscalar : nestedCall.root.Everywhere fun n => n.isScalar = true := by decide +kernel
  have hplain : nestedCall.root.Everywhere fun n => n.hasPlainName = true := by decide +kernel
  have hnames : ∀ name ∈ nestedCall.names.take nestedCall.root.sites.length, IsPlainText name := by
    decide +kernel
  have hbody : nestedCall.functionBody oneFunction =
      .ok ⟨"bqlite_concat_string(?,'who''s?',( ? || '?' ))"⟩ := by decide +kernel
  exact ((functionBody_inline_substitutes nestedCall oneFunction _ hscalar hplain rfl (by decide)
    hnames hbody "h").2 ["a", "b?"]).1 (by decide)

end Statement
end ResolvedSql
