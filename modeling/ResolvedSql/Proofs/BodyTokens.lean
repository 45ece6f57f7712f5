import Mathlib.Algebra.GroupWithZero.Nat
import ResolvedSql.Proofs.BodyPass
/-!
Bodies that are put together. Behind a text that is read to its end, another text is read as it is
read alone, although segments of the two may merge. So each character has one reading, as a mark or
as text, that does not depend on where its text stands. A body that is filled in reads as the body
with the readings of the arguments in place of its marks, and may be an argument in turn.
-/
set_option autoImplicit false

namespace ResolvedSql.FunctionBody

inductive Token where
  | mark
  | char (c : Char)
  deriving DecidableEq, Repr

def Token.source : Token → Char
  | .mark => '?'
  | .char c => c

def Segment.tokens : Segment → List Token
  | .placeholder => [.mark]
  | .text cs => cs.map .char

def tokens (ss : List Segment) : List Token := ss.flatMap Segment.tokens

def source (ss : List Segment) : List Char := (tokens ss).map Token.source

def Token.marksAt (ts : List Token) : List Nat :=
  (List.range ts.length).filter fun i => ts[i]? = some .mark

def positions (ss : List Segment) : List Nat := Token.marksAt (tokens ss)

def fill : List Token → List (List Token) → List Token
  | [], _ => []
  | .char c :: ts, args => .char c :: fill ts args
  | .mark :: ts, arg :: args => arg ++ fill ts args
  | .mark :: ts, [] => fill ts []

theorem tokens_placeholder (ss : List Segment) :
    tokens (.placeholder :: ss) = .mark :: tokens ss := rfl

theorem tokens_text (cs : List Char) (ss : List Segment) :
    tokens (.text cs :: ss) = cs.map .char ++ tokens ss := rfl

theorem tokens_consPlain (c : Char) (ss : List Segment) :
    tokens (consPlain c ss) = .char c :: tokens ss := by
  unfold consPlain
  split
  · split <;> simp [tokens_text]
  · simp [tokens_text]

theorem placeholders_eq_count (ss : List Segment) : placeholders ss = (tokens ss).count .mark := by
  induction ss with
  | nil => rfl
  | cons s ss ih =>
    cases s with
    | placeholder => simpa [placeholders, tokens_placeholder] using ih
    | text cs =>
      have hchars : (cs.map Token.char).count .mark = 0 := by simp [List.count_eq_zero]
      rw [tokens_text, List.count_append, hchars, Nat.zero_add, ← ih]
      simp [placeholders]

theorem Token.marksAt_append (ts us : List Token) :
    marksAt (ts ++ us) = marksAt ts ++ (marksAt us).map (ts.length + ·) := by
  unfold marksAt
  rw [List.length_append, List.range_add, List.filter_append, List.filter_map]
  congr 1
  · refine List.filter_congr fun i hi => ?_
    rw [List.getElem?_append_left (List.mem_range.1 hi)]
  · congr 1
    refine List.filter_congr fun i _ => ?_
    simp [List.getElem?_append_right]

theorem source_segments (cs : List Char) : source (segments cs).1 ++ (segments cs).2 = cs := by
  have hchars (ds : List Char) : (ds.map Token.char).map Token.source = ds := by
    simp [Token.source, Function.comp_def]
  unfold source
  induction cs using text_induction with
  | nil => simp [tokens]
  | mark r ih =>
    rw [segments_mark, tokens_placeholder, List.map_cons, List.cons_append, ih]
    rfl
  | plain c r hc ih =>
    rw [segments_plain hc, tokens_consPlain, List.map_cons, List.cons_append, ih]
    rfl
  | part q body r hq hb ih =>
    rw [segments_part hq hb, tokens_text, List.map_append, hchars, List.append_assoc, ih]
  | unclosed q r hq hr => simp [segments_open hq hr, tokens]

/-- What follows a text that is read to its end is read as it is alone. -/
theorem tokens_segments_append {a : List Char} (ha : (segments a).2 = []) (b : List Char) :
    tokens (segments (a ++ b)).1 = tokens (segments a).1 ++ tokens (segments b).1 ∧
      (segments (a ++ b)).2 = (segments b).2 := by
  induction a using text_induction with
  | nil => simp [tokens]
  | mark r ih =>
    rw [segments_mark] at ha
    rw [List.cons_append, segments_mark, segments_mark]
    simp [tokens_placeholder, ih ha]
  | plain c r hc ih =>
    rw [segments_plain hc] at ha
    rw [List.cons_append, segments_plain hc, segments_plain hc]
    simp [tokens_consPlain, ih ha]
  | part q body r hq hb ih =>
    rw [segments_part hq hb] at ha
    rw [List.append_assoc, segments_part hq hb, segments_part hq hb]
    simp [tokens_text, ih ha]
  | unclosed q r hq hr =>
    rw [segments_open hq hr] at ha
    cases ha

theorem fill_chars (cs : List Char) (ts : List Token) (args : List (List Token)) :
    fill (cs.map .char ++ ts) args = cs.map .char ++ fill ts args := by
  induction cs with
  | nil => rfl
  | cons c cs ih => simp [fill, ih]

theorem count_fill {ts : List Token} {args : List (List Token)} (h : ts.count .mark = args.length) :
    (fill ts args).count .mark = (args.map (List.count .mark)).sum := by
  induction ts generalizing args with
  | nil =>
    obtain rfl := List.length_eq_zero_iff.1 h.symm
    rfl
  | cons t ts ih =>
    cases t with
    | char c => simpa [fill] using ih (by simpa using h)
    | mark =>
      cases args with
      | nil => simp at h
      | cons arg args =>
        have hrest : ts.count .mark = args.length := by simpa using h
        simp [fill, ih hrest]

theorem tokens_splice {cs : List Char} (hcs : (segments cs).2 = []) {args : List String}
    (hargs : ∀ arg ∈ args, (segments arg.toList).2 = []) :
    (segments (splice (segments cs).1 args)).2 = [] ∧
      tokens (segments (splice (segments cs).1 args)).1 =
        fill (tokens (segments cs).1) (args.map fun arg => tokens (segments arg.toList).1) := by
  induction cs using text_induction generalizing args with
  | nil => simp [splice, tokens, fill]
  | mark r ih =>
    rw [segments_mark] at hcs
    rw [segments_mark, tokens_placeholder]
    cases args with
    | nil => simpa [splice, fill] using ih hcs hargs
    | cons arg args =>
      rw [List.forall_mem_cons] at hargs
      obtain ⟨hrest, htokens⟩ := ih hcs hargs.2
      obtain ⟨happend, hleft⟩ := tokens_segments_append hargs.1 (splice (segments r).1 args)
      rw [splice, List.map_cons, fill, happend, hleft, htokens]
      exact ⟨hrest, rfl⟩
  | plain c r hc ih =>
    rw [segments_plain hc] at hcs
    obtain ⟨hrest, htokens⟩ := ih hcs hargs
    rw [segments_plain hc, splice_consPlain, segments_plain hc, tokens_consPlain, tokens_consPlain,
      fill, htokens]
    exact ⟨hrest, rfl⟩
  | part q body r hq hb ih =>
    rw [segments_part hq hb] at hcs
    obtain ⟨hrest, htokens⟩ := ih hcs hargs
    rw [segments_part hq hb, splice, segments_part hq hb, tokens_text, tokens_text, fill_chars,
      htokens]
    exact ⟨hrest, rfl⟩
  | unclosed q r hq hr =>
    rw [segments_open hq hr] at hcs
    cases hcs

theorem length_tokens {a : List Char} (ha : (segments a).2 = []) :
    (tokens (segments a).1).length = a.length := by
  have hsource := congrArg List.length (source_segments a)
  simpa [source, ha] using hsource

theorem positions_segments_append {a : List Char} (ha : (segments a).2 = []) (b : List Char) :
    positions (segments (a ++ b)).1 =
      positions (segments a).1 ++ (positions (segments b).1).map (a.length + ·) := by
  unfold positions
  rw [(tokens_segments_append ha b).1, Token.marksAt_append, length_tokens ha]

theorem tokens_plain {cs : List Char} (h : ∀ c ∈ cs, isPlain c = true) :
    (segments cs).2 = [] ∧ tokens (segments cs).1 = cs.map .char := by
  induction cs with
  | nil => simp [tokens]
  | cons c cs ih =>
    rw [List.forall_mem_cons] at h
    rw [segments_plain h.1, tokens_consPlain, (ih h.2).1, (ih h.2).2]
    exact ⟨rfl, rfl⟩

theorem positions_plain {s : String} (h : IsPlainText s) :
    (segments s.toList).2 = [] ∧ positions (segments s.toList).1 = [] := by
  obtain ⟨hclosed, htokens⟩ := tokens_plain (isPlainText_iff.1 h)
  refine ⟨hclosed, ?_⟩
  simp [positions, Token.marksAt, htokens]

theorem positions_surround {left text right : String} (hleft : IsPlainText left)
    (htext : (segments text.toList).2 = []) (hright : IsPlainText right) :
    (segments (left ++ text ++ right).toList).2 = [] ∧
      positions (segments (left ++ text ++ right).toList).1 =
        (positions (segments text.toList).1).map (left.length + ·) := by
  obtain ⟨hleftClosed, hleftMarks⟩ := positions_plain hleft
  obtain ⟨hrightClosed, hrightMarks⟩ := positions_plain hright
  have hlist : (left ++ text ++ right).toList = left.toList ++ (text.toList ++ right.toList) := by
    simp
  rw [hlist, (tokens_segments_append hleftClosed _).2, (tokens_segments_append htext _).2,
    positions_segments_append hleftClosed, positions_segments_append htext, hleftMarks,
    hrightMarks]
  exact ⟨hrightClosed, by simp [String.length_toList]⟩

theorem scan_succeeds_iff {function s : String} :
    (∃ ss, scan function ⟨s⟩ = .ok ss) ↔ (segments s.toList).2 = [] := by
  constructor
  · rintro ⟨ss, h⟩
    rw [scan_eq_ok.1 h]
  · intro h
    exact ⟨(segments s.toList).1, scan_eq_ok.2 (Prod.ext rfl h)⟩

/-- Behind a text that is read to its end, a text is read as it is alone: it is read to its end or
not, has as many marks, and they stand where they stand alone, moved by the length of what is before
them. So a body that is filled in with such texts is such a text, also with the parentheses around
it, and reads as the body with the readings of the arguments in place of its marks. -/
theorem scan_homomorphic (function : String) :
    (∀ (a b : String) (as : List Segment), scan function ⟨a⟩ = .ok as →
      ((∃ cs, scan function ⟨a ++ b⟩ = .ok cs) ↔ ∃ bs, scan function ⟨b⟩ = .ok bs) ∧
      placeholders (segments (a ++ b).toList).1 =
        placeholders as + placeholders (segments b.toList).1 ∧
      source (segments (a ++ b).toList).1 ++ (segments b.toList).2 = (a ++ b).toList ∧
      positions (segments (a ++ b).toList).1 =
        positions as ++ (positions (segments b.toList).1).map (a.length + ·)) ∧
    ∀ (b : FunctionBody) (ss : List Segment) (args : List String), b.scan function = .ok ss →
      placeholders ss = args.length → (∀ arg ∈ args, ∃ as, scan function ⟨arg⟩ = .ok as) →
      ∃ text ts cs, b.inline function args = .ok ("( " ++ text ++ " )") ∧
        scan function ⟨text⟩ = .ok ts ∧
        tokens ts = fill (tokens ss) (args.map fun arg => tokens (segments arg.toList).1) ∧
        placeholders ts = (args.map fun arg => placeholders (segments arg.toList).1).sum ∧
        scan function ⟨"( " ++ text ++ " )"⟩ = .ok cs ∧
        positions cs = (positions ts).map (2 + ·) := by
  constructor
  · intro a b as ha
    have hsegments := scan_eq_ok.1 ha
    have hclosed : (segments a.toList).2 = [] := by rw [hsegments]
    obtain ⟨htokens, hleft⟩ := tokens_segments_append hclosed b.toList
    have hpositions := positions_segments_append hclosed b.toList
    have hsource := source_segments (a.toList ++ b.toList)
    rw [hsegments] at htokens hpositions
    rw [hleft] at hsource
    refine ⟨?_, ?_, ?_, ?_⟩
    · rw [scan_succeeds_iff, scan_succeeds_iff, String.toList_append, hleft]
    · simp only [placeholders_eq_count, String.toList_append, htokens, List.count_append]
    · rw [String.toList_append, hsource]
    · rw [String.toList_append, hpositions, String.length_toList]
  · intro b ss args hb hcount hargs
    have hsegments := scan_eq_ok.1 hb
    have hclosed : (segments b.text.toList).2 = [] := by rw [hsegments]
    obtain ⟨hend, htokens⟩ := tokens_splice hclosed fun arg h => scan_succeeds_iff.1 (hargs arg h)
    rw [hsegments] at hend htokens
    have htext : (segments (String.ofList (splice ss args)).toList).2 = [] := by
      rw [String.toList_ofList, hend]
    have hopen : IsPlainText "( " := by decide
    have hclose : IsPlainText " )" := by decide
    obtain ⟨hsurround, hpositions⟩ := positions_surround hopen htext hclose
    refine ⟨String.ofList (splice ss args), _, _, inline_eq_ok.2 ⟨ss, hb, hcount, rfl⟩,
      scan_eq_ok.2 (Prod.ext rfl htext), ?_, ?_, scan_eq_ok.2 (Prod.ext rfl hsurround), hpositions⟩
    · rw [String.toList_ofList, htokens]
    · rw [placeholders_eq_count] at hcount
      rw [placeholders_eq_count, String.toList_ofList, htokens,
        count_fill (by rw [hcount, List.length_map]), List.map_map]
      simp only [placeholders_eq_count, Function.comp_def]

/-- A quote that closes meets one that opens: behind the first text, or where the argument ends. -/
theorem meetingQuotes_homomorphic :
    positions (segments ("?||'?'" ++ "'?',?").toList).1 = [0, 10] ∧
      ∃ text ts, inline ⟨"?'?'||?"⟩ "f" ["'?'", "?-?"] = .ok ("( " ++ text ++ " )") ∧
        scan "f" ⟨text⟩ = .ok ts ∧
        tokens ts = "'?''?'||".toList.map .char ++ [.mark, .char '-', .mark] ∧
        placeholders ts = 2 := by
  have hfirst : scan "f" ⟨"?||'?'"⟩ =
      .ok [.placeholder, .text ['|', '|'], .text ['\'', '?', '\'']] := by decide +kernel
  have hbody : scan "f" ⟨"?'?'||?"⟩ =
      .ok [.placeholder, .text ['\'', '?', '\''], .text ['|', '|'], .placeholder] := by
    decide +kernel
  have hargs : ∀ arg ∈ ["'?'", "?-?"], ∃ as, scan "f" ⟨arg⟩ = .ok as := by
    have hclosed : ∀ arg ∈ ["'?'", "?-?"], (segments arg.toList).2 = [] := by decide +kernel
    exact fun arg h => scan_succeeds_iff.2 (hclosed arg h)
  obtain ⟨happend, hinline⟩ := scan_homomorphic "f"
  obtain ⟨text, ts, _, hsql, hscan, htokens, hcount, -⟩ := hinline _ _ _ hbody rfl hargs
  refine ⟨?_, text, ts, hsql, hscan, ?_, ?_⟩
  · rw [(happend _ _ _ hfirst).2.2.2]
    decide +kernel
  · rw [htokens]
    decide +kernel
  · rw [hcount]
    decide +kernel

end ResolvedSql.FunctionBody
