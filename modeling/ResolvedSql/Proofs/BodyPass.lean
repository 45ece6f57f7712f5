import ResolvedSql.Proofs.BodyText
set_option autoImplicit false

namespace ResolvedSql.FunctionBody

/-- Every text is built from its end by marks, plain characters, quoted parts, and a quote that
never closes. -/
theorem text_induction {P : List Char → Prop} (nil : P []) (mark : ∀ r, P r → P ('?' :: r))
    (plain : ∀ c r, isPlain c = true → P r → P (c :: r))
    (part : ∀ q body r, isQuote q = true → q ∉ body → P r → P (part q body ++ r))
    (unclosed : ∀ q r, isQuote q = true → q ∉ r → P (q :: r)) (cs : List Char) : P cs := by
  generalize hn : cs.length = n
  induction n using Nat.strongRecOn generalizing cs with
  | ind n ih =>
    cases cs with
    | nil => exact nil
    | cons c r =>
      rw [List.length_cons] at hn
      have hr : P r := ih r.length (by omega) r rfl
      cases hq : isQuote c with
      | false =>
        rcases mark_or_plain hq with rfl | hc
        · exact mark r hr
        · exact plain c r hc hr
      | true =>
        by_cases hmem : c ∈ r
        · obtain ⟨body, after, rfl, hbody⟩ := List.eq_append_cons_of_mem hmem
          rw [List.length_append, List.length_cons] at hn
          have hafter : P after := ih after.length (by omega) after rfl
          have htext : FunctionBody.part c body ++ after = c :: (body ++ c :: after) := by
            simp [FunctionBody.part]
          rw [← htext]
          exact part c body after hq hbody hafter
        · exact unclosed c r hq hmem

inductive Mode where
  | outside
  | inside (quote : Char)
  deriving DecidableEq, Repr

structure Pass where
  mode : Mode := .outside
  /-- The text from the quote on that is open. -/
  opened : List Char := []
  /-- How many marks were met outside quotes. -/
  marks : Nat := 0
  /-- The text so far, with arguments in place of those marks. -/
  written : List Char := []
  deriving DecidableEq, Repr

namespace Pass

def quotes : List Char := ['\'', '"', '`']

def step (args : List String) (p : Pass) (c : Char) : Pass :=
  match p.mode with
  | .inside q =>
    if c = q then { p with mode := .outside, opened := [], written := p.written ++ [c] }
    else { p with opened := p.opened ++ [c], written := p.written ++ [c] }
  | .outside =>
    if c = '?' then
      { p with marks := p.marks + 1, written := p.written ++ (args.getD p.marks "").toList }
    else if c ∈ quotes then { p with mode := .inside c, opened := [c], written := p.written ++ [c] }
    else { p with written := p.written ++ [c] }

def through (args : List String) (cs : List Char) : Pass := cs.foldl (step args) {}

theorem isQuote_iff {c : Char} : isQuote c = true ↔ c ∈ quotes := by
  simp [isQuote, quotes, or_assoc]

variable (args : List String) (k : Nat) (w : List Char)

theorem step_mark : step args { marks := k, written := w } '?' =
    { marks := k + 1, written := w ++ (args.getD k "").toList } := rfl

theorem step_plain {c : Char} (hc : isPlain c = true) :
    step args { marks := k, written := w } c = { marks := k, written := w ++ [c] } := by
  have hquote : c ∉ quotes := by
    rw [← isQuote_iff, not_isQuote_of_isPlain hc]
    simp
  simp [step, ne_mark_of_isPlain hc, hquote]

theorem step_open {q : Char} (hq : isQuote q = true) :
    step args { marks := k, written := w } q = ⟨.inside q, [q], k, w ++ [q]⟩ := by
  have hmark : q ≠ '?' := by
    rintro rfl
    simp [isQuote] at hq
  simp [step, hmark, isQuote_iff.1 hq]

theorem step_close (q : Char) (o : List Char) :
    step args ⟨.inside q, o, k, w⟩ q = { marks := k, written := w ++ [q] } := by
  simp [step]

/-- Up to the next quote of its kind, everything is copied. -/
theorem foldl_inside {q : Char} {cs : List Char} (hq : q ∉ cs) (o : List Char) :
    cs.foldl (step args) ⟨.inside q, o, k, w⟩ = ⟨.inside q, o ++ cs, k, w ++ cs⟩ := by
  induction cs generalizing o w with
  | nil => simp
  | cons c cs ih =>
    have hc : c ≠ q := fun h => hq (h ▸ List.mem_cons_self)
    have hstep : step args ⟨.inside q, o, k, w⟩ c = ⟨.inside q, o ++ [c], k, w ++ [c]⟩ := by
      simp [step, hc]
    rw [List.foldl_cons, hstep, ih _ fun h => hq (List.mem_cons_of_mem _ h)]
    simp

/-- The reader after segments that leave `rest`, which starts with a quote if it is not empty. -/
def afterSegments (ss : List Segment) (rest : List Char) : Pass where
  mode := match rest with
    | [] => .outside
    | q :: _ => .inside q
  opened := rest
  marks := k + placeholders ss
  written := w ++ splice ss (args.drop k) ++ rest

theorem splice_placeholder (ss : List Segment) :
    splice (.placeholder :: ss) (args.drop k) =
      (args.getD k "").toList ++ splice ss (args.drop (k + 1)) := by
  by_cases hk : k < args.length
  · rw [List.drop_eq_getElem_cons hk, splice]
    simp [hk]
  · rw [List.drop_eq_nil_of_le (by omega), List.drop_eq_nil_of_le (by omega), splice]
    simp [hk]

/-- Reading from outside quotes does what cutting into segments and splicing do. -/
theorem foldl_outside (cs : List Char) :
    cs.foldl (step args) { marks := k, written := w } =
      afterSegments args k w (segments cs).1 (segments cs).2 := by
  induction cs using text_induction generalizing k w with
  | nil => simp [afterSegments, placeholders, splice]
  | mark r ih =>
    rw [List.foldl_cons, step_mark, ih, segments_mark]
    simp only [afterSegments, splice_placeholder, List.append_assoc]
    simp [placeholders, Nat.add_assoc, Nat.add_comm]
  | plain c r hc ih =>
    rw [List.foldl_cons, step_plain args k w hc, ih, segments_plain hc]
    simp [afterSegments, placeholders_consPlain, splice_consPlain]
  | part q body r hq hb ih =>
    rw [segments_part hq hb, List.foldl_append]
    have hpart : (part q body).foldl (step args) { marks := k, written := w } =
        { marks := k, written := w ++ part q body } := by
      rw [part, List.foldl_cons, step_open args k w hq, List.foldl_append,
        foldl_inside args k _ hb, List.foldl_cons, step_close]
      simp
    rw [hpart, ih]
    simp [afterSegments, placeholders, splice]
  | unclosed q r hq hr =>
    rw [segments_open hq hr, List.foldl_cons, step_open args k w hq, foldl_inside args k _ hr]
    simp [afterSegments, placeholders, splice]

theorem through_eq (cs : List Char) :
    through args cs = afterSegments args 0 [] (segments cs).1 (segments cs).2 :=
  foldl_outside args 0 [] cs

end Pass

/-- Calling a function fills in its body in one pass. If that ends inside a quote, the body is
malformed near that quote; else the number of marks must be the number of arguments. The arguments
do not affect what is read as a mark or as a quote. -/
theorem inline_eq_pass (b : FunctionBody) (function : String) (args : List String) :
    b.inline function args =
      (match (Pass.through args b.text.toList).mode with
      | .inside _ => .error (.malformedBody function
          (String.ofList ((Pass.through args b.text.toList).opened.take 20)))
      | .outside =>
        if (Pass.through args b.text.toList).marks = args.length then
          .ok ("( " ++ String.ofList (Pass.through args b.text.toList).written ++ " )")
        else .error (.arityMismatch function (Pass.through args b.text.toList).marks args.length)) ∧
    ∀ others, { Pass.through others b.text.toList with written := [] } =
      { Pass.through args b.text.toList with written := [] } := by
  refine ⟨?_, fun others => by simp [Pass.through_eq, Pass.afterSegments]⟩
  rw [Pass.through_eq]
  cases hs : segments b.text.toList with
  | mk ss rest =>
    cases rest with
    | nil =>
      have hscan : b.scan function = .ok ss := scan_eq_ok.2 hs
      simp only [Pass.afterSegments, Nat.zero_add, List.drop_zero, List.nil_append, List.append_nil]
      split
      · rename_i hcount
        exact inline_eq_ok.2 ⟨ss, hscan, hcount, rfl⟩
      · rename_i hcount
        exact inline_eq_arityMismatch hscan hcount
    | cons q r =>
      simp only [Pass.afterSegments]
      simp [inline, scan, hs, nearLength, Bind.bind, Except.bind]

end ResolvedSql.FunctionBody
