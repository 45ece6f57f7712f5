import Mathlib.Data.List.Forall2
import ResolvedSql.NamePath
import ResolvedSql.Proofs.LiteralText
/-!
The skeleton of a text: its segments, with each row of single-quoted parts replaced by one marker.
Texts are alike if they differ in nothing but what stands in single quotes. Alike texts are read to
their ends and have the same skeleton, and putting alike texts together gives alike texts.
-/
set_option autoImplicit false

namespace ResolvedSql

open FunctionBody

inductive Piece where
  | verbatim (s : Segment)
  | literal
  deriving DecidableEq, Repr

namespace Piece

def consLiteral : List Piece → List Piece
  | .literal :: ps => .literal :: ps
  | ps => .literal :: ps

def consPlain (c : Char) : List Piece → List Piece
  | .verbatim (.text (d :: ds)) :: ps =>
    if isPlain d then .verbatim (.text (c :: d :: ds)) :: ps
    else .verbatim (.text [c]) :: .verbatim (.text (d :: ds)) :: ps
  | ps => .verbatim (.text [c]) :: ps

def ofSegments : List Segment → List Piece
  | [] => []
  | .text ('\'' :: _) :: ss => consLiteral (ofSegments ss)
  | s :: ss => .verbatim s :: ofSegments ss

theorem ofSegments_text {c : Char} (hc : c ≠ '\'') (cs : List Char) (ss : List Segment) :
    ofSegments (.text (c :: cs) :: ss) = .verbatim (.text (c :: cs)) :: ofSegments ss := by
  rw [ofSegments]
  simp [hc]

theorem consLiteral_eq (ps : List Piece) : ∃ ps', consLiteral ps = .literal :: ps' := by
  unfold consLiteral
  split
  · exact ⟨_, rfl⟩
  · exact ⟨_, rfl⟩

theorem consLiteral_consLiteral (ps : List Piece) :
    consLiteral (consLiteral ps) = consLiteral ps := by
  obtain ⟨ps', h⟩ := consLiteral_eq ps
  rw [h, consLiteral]

theorem ofSegments_consPlain {c : Char} (hc : isPlain c = true) (ss : List Segment) :
    ofSegments (FunctionBody.consPlain c ss) = consPlain c (ofSegments ss) := by
  have hquote {d : Char} (hd : isPlain d = true) : d ≠ '\'' := by
    rintro rfl
    simp [isPlain, isQuote] at hd
  have hfront (ss : List Segment) :
      ofSegments (.text [c] :: ss) = .verbatim (.text [c]) :: ofSegments ss :=
    ofSegments_text (hquote hc) [] ss
  unfold FunctionBody.consPlain
  split
  · rename_i d ds ss
    by_cases hd : isPlain d = true
    · rw [if_pos hd, ofSegments_text (hquote hc), ofSegments_text (hquote hd)]
      simp [consPlain, hd]
    · rw [if_neg hd, hfront]
      by_cases hl : d = '\''
      · subst hl
        obtain ⟨ps, hps⟩ := consLiteral_eq (ofSegments ss)
        rw [ofSegments, hps, consPlain]
        simp
      · rw [ofSegments_text hl]
        simp [consPlain, hd]
  · rename_i hne
    rw [hfront]
    cases ss with
    | nil => rfl
    | cons s ss =>
      cases s with
      | placeholder => rfl
      | text cs =>
        cases cs with
        | nil => rfl
        | cons d ds => exact (hne d ds ss rfl).elim

theorem ofSegments_literal {bodies : List (List Char)} (hne : bodies ≠ []) (ss : List Segment) :
    ofSegments (bodies.map (fun b => .text (part '\'' b)) ++ ss) = consLiteral (ofSegments ss) := by
  induction bodies with
  | nil => exact (hne rfl).elim
  | cons body bodies ih =>
    rw [List.map_cons, List.cons_append, part, ofSegments]
    cases bodies with
    | nil => rfl
    | cons body' bodies => rw [ih (by simp), consLiteral_consLiteral]

end Piece

/-- The pieces of a text, and what is left of it from a quote on that is not closed. -/
def skeleton (sql : String) : List Piece × List Char :=
  (Piece.ofSegments (segments sql.toList).1, (segments sql.toList).2)

/-- Equal but for what stands in single quotes. -/
inductive Alike : List Char → List Char → Prop
  | nil : Alike [] []
  | char {c : Char} {a b : List Char} (hc : isQuote c = false) (h : Alike a b) :
      Alike (c :: a) (c :: b)
  | part {q : Char} {body a b : List Char} (hq : isQuote q = true) (hl : q ≠ '\'')
      (hb : q ∉ body) (h : Alike a b) : Alike (part q body ++ a) (part q body ++ b)
  | literal {bodies bodies' : List (List Char)} {a b : List Char} (hne : bodies ≠ [])
      (hne' : bodies' ≠ []) (hb : ∀ body ∈ bodies, '\'' ∉ body)
      (hb' : ∀ body ∈ bodies', '\'' ∉ body) (h : Alike a b) :
      Alike (bodies.flatMap (part '\'') ++ a) (bodies'.flatMap (part '\'') ++ b)

namespace Alike

theorem append {a b c d : List Char} (h : Alike a b) (h' : Alike c d) :
    Alike (a ++ c) (b ++ d) := by
  induction h with
  | nil => exact h'
  | char hc _ ih => exact .char hc ih
  | part hq hl hb _ ih =>
    rw [List.append_assoc, List.append_assoc]
    exact .part hq hl hb ih
  | literal hne hne' hb hb' _ ih =>
    rw [List.append_assoc, List.append_assoc]
    exact .literal hne hne' hb hb' ih

theorem symm {a b : List Char} (h : Alike a b) : Alike b a := by
  induction h with
  | nil => exact .nil
  | char hc _ ih => exact .char hc ih
  | part hq hl hb _ ih => exact .part hq hl hb ih
  | literal hne hne' hb hb' _ ih => exact .literal hne' hne hb' hb ih

theorem closed {a b : List Char} (h : Alike a b) : (segments a).2 = [] := by
  induction h with
  | nil => simp
  | char hc _ ih =>
    rcases mark_or_plain hc with rfl | hc
    · rw [segments_mark, ih]
    · rw [segments_plain hc, ih]
  | part hq _ hb _ ih => rw [segments_part hq hb, ih]
  | literal _ _ hb _ _ ih => rw [segments_parts (by decide) hb, ih]

theorem pieces_eq {a b : List Char} (h : Alike a b) :
    Piece.ofSegments (segments a).1 = Piece.ofSegments (segments b).1 := by
  induction h with
  | nil => rfl
  | char hc _ ih =>
    rcases mark_or_plain hc with rfl | hc
    · rw [segments_mark, segments_mark, Piece.ofSegments, Piece.ofSegments, ih] <;> simp
    · rw [segments_plain hc, segments_plain hc, Piece.ofSegments_consPlain hc,
        Piece.ofSegments_consPlain hc, ih]
  | part hq hl hb _ ih =>
    rw [segments_part hq hb, segments_part hq hb, FunctionBody.part, Piece.ofSegments_text hl,
      Piece.ofSegments_text hl, ih]
  | literal hne hne' hb hb' _ ih =>
    rw [segments_parts (by decide) hb, segments_parts (by decide) hb', Piece.ofSegments_literal hne,
      Piece.ofSegments_literal hne', ih]

theorem isPrefixOf_eq {front a b : List Char} (hf : ∀ c ∈ front, isQuote c = false)
    (h : Alike a b) : front.isPrefixOf a = front.isPrefixOf b := by
  induction h generalizing front with
  | nil => rfl
  | char hc _ ih =>
    cases front with
    | nil => simp
    | cons d front =>
      simp only [List.isPrefixOf]
      rw [ih fun c h => hf c (List.mem_cons_of_mem _ h)]
  | @part q _ _ _ hq hl hb _ ih =>
    cases front with
    | nil => simp
    | cons d front =>
      have hd : (d == q) = false :=
        beq_false_of_ne (ne_of_isQuote (hf d (List.mem_cons_self ..)) hq)
      simp [FunctionBody.part, List.isPrefixOf, hd]
  | literal hne hne' hb hb' _ ih =>
    cases front with
    | nil => simp
    | cons d front =>
      have hd : (d == '\'') = false :=
        beq_false_of_ne (ne_of_isQuote (hf d (List.mem_cons_self ..)) (by decide))
      obtain ⟨body, bodies, rfl⟩ := List.exists_cons_of_ne_nil hne
      obtain ⟨body', bodies', rfl⟩ := List.exists_cons_of_ne_nil hne'
      simp [FunctionBody.part, List.isPrefixOf, hd]

theorem nil_iff {a b : List Char} (h : Alike a b) : a = [] ↔ b = [] := by
  induction h with
  | nil => rfl
  | char => simp
  | part => simp [FunctionBody.part]
  | literal hne hne' =>
    obtain ⟨body, bodies, rfl⟩ := List.exists_cons_of_ne_nil hne
    obtain ⟨body', bodies', rfl⟩ := List.exists_cons_of_ne_nil hne'
    simp [FunctionBody.part]

theorem refl {cs : List Char} (h : ∀ c ∈ cs, isQuote c = false) : Alike cs cs := by
  induction cs with
  | nil => exact .nil
  | cons c cs ih =>
    exact .char (h c (List.mem_cons_self ..)) (ih fun d hd => h d (List.mem_cons_of_mem _ hd))

theorem samePart {q : Char} {body a b : List Char} (hq : isQuote q = true) (hb : q ∉ body)
    (h : Alike a b) : Alike (FunctionBody.part q body ++ a) (FunctionBody.part q body ++ b) := by
  by_cases hl : q = '\''
  · subst hl
    have := @Alike.literal [body] [body] a b (by simp) (by simp) (by simpa using hb)
      (by simpa using hb) h
    simpa using this
  · exact .part hq hl hb h

theorem sameParts {q : Char} (hq : isQuote q = true) {bodies : List (List Char)}
    (hb : ∀ b ∈ bodies, q ∉ b) :
    Alike (bodies.flatMap (FunctionBody.part q)) (bodies.flatMap (FunctionBody.part q)) := by
  induction bodies with
  | nil => exact .nil
  | cons body bodies ih =>
    exact samePart hq (hb body (List.mem_cons_self ..))
      (ih fun b h => hb b (List.mem_cons_of_mem _ h))

theorem splice {ss : List Segment} (hss : ∀ s ∈ ss, s.WellFormed) {as bs : List String}
    (h : List.Forall₂ (fun a b => Alike a.toList b.toList) as bs) :
    Alike (splice ss as) (splice ss bs) := by
  induction ss generalizing as bs with
  | nil => exact .nil
  | cons s ss ih =>
    have htail := fun s hs => hss s (List.mem_cons_of_mem _ hs)
    cases s with
    | placeholder =>
      cases h with
      | nil => exact ih htail .nil
      | cons ha hs => exact ha.append (ih htail hs)
    | text cs =>
      rcases hss _ (List.mem_cons_self ..) with hcs | ⟨q, body, hq, hb, rfl⟩
      · exact (refl fun c hc => not_isQuote_of_isPlain (hcs c hc)).append (ih htail h)
      · exact samePart hq hb (ih htail h)

end Alike

def HasNoQuote (s : String) : Prop := s.toList.all (fun c => !isQuote c) = true

instance (s : String) : Decidable (HasNoQuote s) :=
  inferInstanceAs (Decidable (s.toList.all (fun c => !isQuote c) = true))

theorem hasNoQuote_iff {s : String} : HasNoQuote s ↔ ∀ c ∈ s.toList, isQuote c = false := by
  simp [HasNoQuote]

theorem HasNoQuote.of_isPlainText {s : String} (h : IsPlainText s) : HasNoQuote s :=
  hasNoQuote_iff.2 fun c hc => not_isQuote_of_isPlain (isPlainText_iff.1 h c hc)

theorem HasNoQuote.append {s t : String} (hs : HasNoQuote s) (ht : HasNoQuote t) :
    HasNoQuote (s ++ t) := by
  unfold HasNoQuote at *
  rw [String.toList_append, List.all_append, hs, ht]
  rfl

def AlikeText (a b : String) : Prop := Alike a.toList b.toList

namespace AlikeText

variable {a b c d : String}

theorem append (h : AlikeText a b) (h' : AlikeText c d) : AlikeText (a ++ c) (b ++ d) := by
  unfold AlikeText at *
  rw [String.toList_append, String.toList_append]
  exact h.append h'

theorem fixed (h : HasNoQuote a) : AlikeText a a := Alike.refl (hasNoQuote_iff.1 h)

theorem quoted {q : Char} (hq : isQuote q = true) (s : String) :
    AlikeText (Text.quoted q s) (Text.quoted q s) := by
  obtain ⟨bodies, -, hb, htext⟩ := quoted_eq_parts q s
  unfold AlikeText
  rw [htext]
  exact Alike.sameParts hq hb

theorem name (s : String) : AlikeText (quoteName s) (quoteName s) := quoted (by decide) s

theorem literal (s t : String) : AlikeText (Literal.quote s) (Literal.quote t) := by
  obtain ⟨bodies, hne, hb, htext⟩ := quoted_eq_parts '\'' s
  obtain ⟨bodies', hne', hb', htext'⟩ := quoted_eq_parts '\'' t
  unfold AlikeText Literal.quote
  rw [htext, htext']
  simpa using Alike.literal hne hne' hb hb' .nil

theorem skeleton_eq (h : AlikeText a b) : skeleton a = skeleton b := by
  unfold skeleton
  rw [h.pieces_eq, h.closed, h.symm.closed]

theorem eq_empty_iff (h : AlikeText a b) : a = "" ↔ b = "" := by
  rw [← String.toList_eq_nil_iff, ← String.toList_eq_nil_iff]
  exact h.nil_iff

theorem startsWith_eq (h : AlikeText a b) (hc : HasNoQuote c) :
    Text.startsWith c a = Text.startsWith c b :=
  h.isPrefixOf_eq (hasNoQuote_iff.1 hc)

theorem separated {as bs : List String} (h : List.Forall₂ AlikeText as bs) (hc : HasNoQuote c) :
    AlikeText (Text.separated c as) (Text.separated c bs) := by
  induction h with
  | nil => exact .nil
  | cons ha hs ih =>
    cases hs with
    | nil => exact ha
    | cons hb hs => exact (ha.append (fixed hc)).append ih

theorem commas {as bs : List String} (h : List.Forall₂ AlikeText as bs) :
    AlikeText (Text.commas as) (Text.commas bs) := separated h (by decide)

end AlikeText
end ResolvedSql
