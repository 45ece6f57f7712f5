import Mathlib.Data.List.TakeWhile
import ResolvedSql.Function.Body
import ResolvedSql.Text.Quoted
set_option autoImplicit false

namespace ResolvedSql.FunctionBody

def part (q : Char) (body : List Char) : List Char := q :: (body ++ [q])

/-- Puts a plain character in front of segments, into the first one if that is plain too. -/
def consPlain (c : Char) : List Segment → List Segment
  | .text (d :: ds) :: ss =>
    if isPlain d then .text (c :: d :: ds) :: ss else .text [c] :: .text (d :: ds) :: ss
  | ss => .text [c] :: ss

theorem not_isQuote_of_isPlain {c : Char} (h : isPlain c = true) : isQuote c = false := by
  unfold isPlain at h
  cases hq : isQuote c <;> simp [hq] at h ⊢

theorem ne_mark_of_isPlain {c : Char} (h : isPlain c = true) : c ≠ '?' := by
  rintro rfl
  simp [isPlain] at h

theorem mark_or_plain {c : Char} (h : isQuote c = false) : c = '?' ∨ isPlain c = true := by
  by_cases hm : c = '?'
  · exact .inl hm
  · exact .inr (by simp [isPlain, hm, h])

theorem ne_of_isQuote {c q : Char} (hc : isQuote c = false) (hq : isQuote q = true) : c ≠ q := by
  rintro rfl
  simp [hc] at hq

@[simp] theorem segments_nil : segments [] = ([], []) := by
  rw [segments]

@[simp] theorem segments_mark (r : List Char) :
    segments ('?' :: r) = (.placeholder :: (segments r).1, (segments r).2) := by
  rw [segments]
  simp

theorem segments_run {c : Char} (h : isPlain c = true) (r : List Char) :
    segments (c :: r) = (.text (c :: r.takeWhile isPlain) :: (segments (r.dropWhile isPlain)).1,
      (segments (r.dropWhile isPlain)).2) := by
  rw [segments]
  simp [ne_mark_of_isPlain h, not_isQuote_of_isPlain h]

theorem segments_part {q : Char} {body : List Char} (hq : isQuote q = true) (hb : q ∉ body)
    (r : List Char) :
    segments (part q body ++ r) = (.text (part q body) :: (segments r).1, (segments r).2) := by
  have hmark : q ≠ '?' := by
    rintro rfl
    simp [isQuote] at hq
  have hall : ∀ d ∈ body, decide (d ≠ q) = true := by
    intro d hd
    simp only [decide_eq_true_eq]
    rintro rfl
    exact hb hd
  have hdrop : (body ++ q :: r).dropWhile (fun d => d ≠ q) = q :: r := by
    rw [List.dropWhile_append_of_pos hall]
    simp
  have htake : (body ++ q :: r).takeWhile (fun d => d ≠ q) = body := by
    rw [List.takeWhile_append_of_pos hall]
    simp
  have htext : part q body ++ r = q :: (body ++ q :: r) := by simp [part]
  rw [htext, segments]
  simp only [hmark, hq, if_true, if_false]
  split
  · rename_i h
    rw [hdrop] at h
    simp at h
  · rename_i q' after h
    rw [hdrop] at h
    cases h
    rw [htake]
    rfl

theorem segments_open {q : Char} {r : List Char} (hq : isQuote q = true) (hr : q ∉ r) :
    segments (q :: r) = ([], q :: r) := by
  have hmark : q ≠ '?' := by
    rintro rfl
    simp [isQuote] at hq
  have hdrop : r.dropWhile (fun d => d ≠ q) = [] := by
    rw [List.dropWhile_eq_nil_iff]
    intro d hd
    simp only [decide_eq_true_eq]
    rintro rfl
    exact hr hd
  rw [segments]
  simp only [hmark, hq, if_true, if_false]
  split
  · rfl
  · rename_i h
    rw [hdrop] at h
    simp at h

theorem segments_plain {c : Char} (h : isPlain c = true) (r : List Char) :
    segments (c :: r) = (consPlain c (segments r).1, (segments r).2) := by
  rw [segments_run h]
  cases r with
  | nil => simp [consPlain]
  | cons d r =>
    by_cases hd : isPlain d = true
    · rw [segments_run hd, List.takeWhile_cons_of_pos hd, List.dropWhile_cons_of_pos hd]
      simp [consPlain, hd]
    · rw [List.takeWhile_cons_of_neg hd, List.dropWhile_cons_of_neg hd]
      have hcons : consPlain c (segments (d :: r)).1 = .text [c] :: (segments (d :: r)).1 := by
        by_cases hm : d = '?'
        · subst hm
          simp [consPlain]
        · have hq : isQuote d = true := by
            cases hq : isQuote d <;> simp [isPlain, hm, hq] at hd ⊢
          by_cases hr : d ∈ r
          · obtain ⟨body, after, rfl, hb⟩ := List.eq_append_cons_of_mem hr
            have hs := segments_part hq hb after
            simp only [part, List.cons_append, List.append_assoc, List.nil_append] at hs
            simp [hs, consPlain, hd]
          · simp [segments_open hq hr, consPlain]
      rw [hcons]

/-- A mark, plain text, or one quoted part. -/
def Segment.WellFormed : Segment → Prop
  | .placeholder => True
  | .text cs =>
    (∀ c ∈ cs, isPlain c = true) ∨ ∃ q body, isQuote q = true ∧ q ∉ body ∧ cs = part q body

theorem segments_wellFormed (cs : List Char) : ∀ s ∈ (segments cs).1, s.WellFormed := by
  fun_induction segments cs with
  | case1 => simp
  | case2 r ss rest hs ih =>
    rw [hs] at ih
    intro s hs
    rcases List.mem_cons.1 hs with rfl | hs
    · trivial
    · exact ih s hs
  | case3 c r hm hq hdrop => simp
  | case4 c r hm hq q after hdrop ss rest hs ih =>
    rw [hs] at ih
    intro s hs
    rcases List.mem_cons.1 hs with rfl | hs
    · have hqc : q = c := by
        have hhead := List.head?_dropWhile_not (fun d => decide (d ≠ c)) r
        rw [hdrop] at hhead
        simpa using hhead
      refine .inr ⟨c, _, hq, ?_, by rw [hqc]; rfl⟩
      intro hmem
      have := List.mem_takeWhile_imp hmem
      simp at this
    · exact ih s hs
  | case5 c r hm hq ss rest hs ih =>
    rw [hs] at ih
    intro s hs
    rcases List.mem_cons.1 hs with rfl | hs
    · refine .inl fun d hd => ?_
      rcases List.mem_cons.1 hd with rfl | hd
      · simp [isPlain, hm, hq]
      · exact List.mem_takeWhile_imp hd
    · exact ih s hs

theorem double_eq_parts (q : Char) (cs : List Char) {front : List Char} (hf : q ∉ front) :
    ∃ bodies : List (List Char), bodies ≠ [] ∧ (∀ b ∈ bodies, q ∉ b) ∧
      q :: (front ++ (Text.double q cs ++ [q])) = bodies.flatMap (part q) := by
  induction cs generalizing front with
  | nil => exact ⟨[front], by simp, by simpa using hf, by simp [Text.double, part]⟩
  | cons c r ih =>
    by_cases hc : c = q
    · -- the first of the two quotes ends the part
      subst hc
      obtain ⟨bodies, -, hbodies, htext⟩ := ih (List.not_mem_nil (a := c))
      refine ⟨front :: bodies, by simp, ?_, ?_⟩
      · intro b hb
        rcases List.mem_cons.1 hb with rfl | hb
        · exact hf
        · exact hbodies b hb
      · rw [List.flatMap_cons, ← htext]
        simp [Text.double, part]
    · obtain ⟨bodies, hne, hbodies, htext⟩ := @ih (front ++ [c]) (by
        simp only [List.mem_append, List.mem_singleton, not_or]
        exact ⟨hf, fun h => hc h.symm⟩)
      refine ⟨bodies, hne, hbodies, ?_⟩
      rw [← htext]
      simp [Text.double, hc]

theorem quoted_eq_parts (q : Char) (s : String) :
    ∃ bodies : List (List Char), bodies ≠ [] ∧ (∀ b ∈ bodies, q ∉ b) ∧
      (Text.quoted q s).toList = bodies.flatMap (part q) := by
  obtain ⟨bodies, hne, hbodies, htext⟩ := double_eq_parts q s.toList (List.not_mem_nil (a := q))
  refine ⟨bodies, hne, hbodies, ?_⟩
  rw [← htext]
  simp [Text.quoted]

theorem segments_parts {q : Char} (hq : isQuote q = true) {bodies : List (List Char)}
    (hb : ∀ b ∈ bodies, q ∉ b) (r : List Char) :
    segments (bodies.flatMap (part q) ++ r) =
      (bodies.map (fun b => .text (part q b)) ++ (segments r).1, (segments r).2) := by
  induction bodies with
  | nil => simp
  | cons body bodies ih =>
    rw [List.flatMap_cons, List.append_assoc, segments_part hq (hb body (List.mem_cons_self ..)),
      ih fun b h => hb b (List.mem_cons_of_mem _ h)]
    rfl

/-- Neither marks nor quotes. -/
def IsPlainText (s : String) : Prop := s.toList.all isPlain = true

instance (s : String) : Decidable (IsPlainText s) :=
  inferInstanceAs (Decidable (s.toList.all isPlain = true))

theorem isPlainText_iff {s : String} : IsPlainText s ↔ ∀ c ∈ s.toList, isPlain c = true :=
  List.all_eq_true

theorem IsPlainText.append {s t : String} (hs : IsPlainText s) (ht : IsPlainText t) :
    IsPlainText (s ++ t) := by
  unfold IsPlainText at *
  rw [String.toList_append, List.all_append, hs, ht]
  rfl

theorem splice_consPlain (c : Char) (ss : List Segment) (args : List String) :
    splice (consPlain c ss) args = c :: splice ss args := by
  unfold consPlain
  split
  · split <;> simp [splice]
  · simp [splice]

theorem placeholders_consPlain (c : Char) (ss : List Segment) :
    placeholders (consPlain c ss) = placeholders ss := by
  unfold consPlain placeholders
  split
  · split <;> simp
  · simp

theorem scan_eq_ok {function : String} {b : FunctionBody} {ss : List Segment} :
    b.scan function = .ok ss ↔ segments b.text.toList = (ss, []) := by
  unfold scan
  split
  · rename_i h
    simp [h]
  · rename_i rest hne h
    constructor
    · intro hss
      simp at hss
    · intro hss
      rw [hss] at h
      cases h
      exact (hne rfl).elim

theorem scan_wellFormed {function : String} {b : FunctionBody} {ss : List Segment}
    (h : b.scan function = .ok ss) : ∀ s ∈ ss, s.WellFormed := by
  have hss := segments_wellFormed b.text.toList
  rw [scan_eq_ok.1 h] at hss
  exact hss

theorem inline_eq_ok {function sql : String} {b : FunctionBody} {args : List String} :
    b.inline function args = .ok sql ↔ ∃ ss, b.scan function = .ok ss ∧
      placeholders ss = args.length ∧ sql = "( " ++ String.ofList (splice ss args) ++ " )" := by
  unfold inline
  cases b.scan function with
  | error e => simp [Bind.bind, Except.bind]
  | ok ss =>
    by_cases hp : placeholders ss = args.length
    · simp [Bind.bind, Except.bind, hp, Pure.pure, Except.pure, eq_comm]
    · simp [Bind.bind, Except.bind, hp, throw, throwThe, MonadExceptOf.throw]

theorem inline_eq_arityMismatch {function : String} {b : FunctionBody} {ss : List Segment}
    {args : List String} (hscan : b.scan function = .ok ss) (h : placeholders ss ≠ args.length) :
    b.inline function args = .error (.arityMismatch function (placeholders ss) args.length) := by
  unfold inline
  simp [hscan, h, Bind.bind, Except.bind, throw, throwThe, MonadExceptOf.throw]

end ResolvedSql.FunctionBody
