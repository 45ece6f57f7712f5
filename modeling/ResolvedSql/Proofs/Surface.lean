import ResolvedSql.Config.Basic
import ResolvedSql.Function.Catalog
import ResolvedSql.Proofs.LiteralText
import ResolvedSql.Render.Clause
/-!
The surface of a text: what stands outside its quotes and parentheses. The clauses of a query are
known by the words on its surface, and a text that closes all it opens shows the same clauses
wherever it stands.
-/
set_option autoImplicit false

namespace ResolvedSql

open Text Render FunctionBody

/-- Where the reader of a text is: in which quotes, and in how many parentheses. -/
structure Reader where
  quote : Option Char := none
  depth : Nat := 0

namespace Reader

def step (r : Reader) (c : Char) : Reader :=
  match r.quote with
  | some q => if c = q then { r with quote := none } else r
  | none =>
    if isQuote c then { r with quote := some c }
    else if c = '(' then { r with depth := r.depth + 1 }
    else if c = ')' then { r with depth := r.depth - 1 }
    else r

/-- Quotes and parentheses are seen as blanks, and what they hold not at all. -/
def sees (r : Reader) (c : Char) : List Char :=
  if r.quote.isSome || r.depth != 0 then []
  else if isQuote c || c = '(' || c = ')' then [' ']
  else [c]

def sight (r : Reader) : List Char → List Char
  | [] => []
  | c :: cs => r.sees c ++ (r.step c).sight cs

theorem sight_append (r : Reader) (cs ds : List Char) :
    r.sight (cs ++ ds) = r.sight cs ++ (cs.foldl step r).sight ds := by
  induction cs generalizing r with
  | nil => rfl
  | cons c cs ih => simp [sight, ih]

end Reader

def surface (s : String) : List Char := Reader.sight {} s.toList

inductive Clause where
  | select
  | source
  | filter
  | groupBy
  | having
  | orderBy
  | limit
  deriving DecidableEq, Repr

namespace Clause

def word : Clause → String
  | .select => "SELECT"
  | .source => "FROM"
  | .filter => "WHERE"
  | .groupBy => "GROUP"
  | .having => "HAVING"
  | .orderBy => "ORDER"
  | .limit => "LIMIT"

def all : List Clause := [.select, .source, .filter, .groupBy, .having, .orderBy, .limit]

def rank (c : Clause) : Nat := all.idxOf c

def ofWord? (w : List Char) : Option Clause := all.find? fun c => c.word.toList = w

theorem ofWord?_eq_none {w : List Char} (h : ∀ c ∈ all, c.word.toList ≠ w) : ofWord? w = none :=
  List.find?_eq_none.2 fun c hc => by simpa using h c hc

end Clause

def isDivider (c : Char) : Bool := !Config.isIdentifierChar c

def clausesOf (cs : List Char) : List Clause := (cs.splitOnP isDivider).filterMap Clause.ofWord?

/-- The clauses that a query shows outside quotes and parentheses. -/
def clausesIn (sql : String) : List Clause := clausesOf (surface sql)

theorem clausesOf_append_cons {c : Char} (hc : isDivider c = true) (cs ds : List Char) :
    clausesOf (cs ++ c :: ds) = clausesOf cs ++ clausesOf ds := by
  rw [clausesOf, List.splitOnP_append_cons cs ds hc, List.filterMap_append]
  rfl

theorem clausesOf_cons {c : Char} (hc : isDivider c = true) (cs : List Char) :
    clausesOf (c :: cs) = clausesOf cs :=
  clausesOf_append_cons hc [] cs

theorem mem_of_mem_splitOnP {α : Type} {p : α → Bool} {as w : List α} {a : α}
    (hw : w ∈ as.splitOnP p) (ha : a ∈ w) : a ∈ as := by
  induction as generalizing w with
  | nil =>
    rw [List.splitOnP_nil, List.mem_singleton] at hw
    exact hw ▸ ha
  | cons b as ih =>
    rw [List.splitOnP_cons_eq_if_modifyHead] at hw
    split at hw
    · rcases List.mem_cons.1 hw with rfl | hw
      · cases ha
      · exact List.mem_cons_of_mem _ (ih hw ha)
    · cases hws : as.splitOnP p with
      | nil => exact absurd hws (List.splitOnP_ne_nil p as)
      | cons v vs =>
        rw [hws, List.modifyHead_cons] at hw
        rw [hws] at ih
        rcases List.mem_cons.1 hw with rfl | hw
        · rcases List.mem_cons.1 ha with rfl | ha
          · exact List.mem_cons_self
          · exact List.mem_cons_of_mem _ (ih List.mem_cons_self ha)
        · exact List.mem_cons_of_mem _ (ih (List.mem_cons_of_mem _ hw) ha)

theorem clausesOf_numeral {cs : List Char} (h : ∀ c ∈ cs, isNumeralChar c = true) :
    clausesOf cs = [] := by
  have hletter : ∀ k ∈ Clause.all, k.word.toList.all isNumeralChar = false := by decide
  refine List.filterMap_eq_nil_iff.2 fun w hw => Clause.ofWord?_eq_none fun k hk hkw => ?_
  obtain ⟨c, hc, hnot⟩ := List.all_eq_false.1 (hletter k hk)
  exact hnot (h c (mem_of_mem_splitOnP hw (hkw ▸ hc)))

theorem clausesOf_name {cs : List Char} (h : cs.all Config.isIdentifierChar = true)
    (hmark : '_' ∈ cs) : clausesOf cs = [] := by
  have hwords : ∀ k ∈ Clause.all, '_' ∉ k.word.toList := by decide
  have hone : cs.splitOnP isDivider = [cs] :=
    List.splitOnP_eq_singleton fun c hc => by simp [isDivider, List.all_eq_true.1 h c hc]
  rw [clausesOf, hone]
  simp [Clause.ofWord?_eq_none fun k hk hkw => hwords k hk (hkw ▸ hmark)]

/-- A text that closes all it opens, so that what stands in parentheses around it is hidden. -/
structure Balanced (s : String) : Prop where
  returns : ∀ d, s.toList.foldl Reader.step ⟨none, d⟩ = ⟨none, d⟩
  hidden : ∀ d, Reader.sight ⟨none, d + 1⟩ s.toList = []

def isFlat (c : Char) : Bool := !isQuote c && c != '(' && c != ')'

def IsFlat (s : String) : Prop := s.toList.all isFlat = true

instance (s : String) : Decidable (IsFlat s) :=
  inferInstanceAs (Decidable (s.toList.all isFlat = true))

theorem isFlat_iff {s : String} : IsFlat s ↔ ∀ c ∈ s.toList, isFlat c = true := List.all_eq_true

theorem isFlat_of_isNumeralChar {c : Char} (h : isNumeralChar c = true) : isFlat c = true := by
  have hne {d : Char} (hd : isNumeralChar d = false) : c ≠ d := by
    rintro rfl
    simp [hd] at h
  have hquote := not_isQuote_of_isPlain (isPlain_of_isNumeralChar h)
  simp [isFlat, hquote, hne (d := '(') (by decide), hne (d := ')') (by decide)]

theorem isFlat_of_isIdentifierChars {s : String}
    (h : s.toList.all Config.isIdentifierChar = true) : IsFlat s := by
  refine isFlat_iff.2 fun c hc => ?_
  have hne {d : Char} (hd : Config.isIdentifierChar d = false) : c ≠ d := by
    rintro rfl
    exact Bool.eq_false_iff.1 hd (List.all_eq_true.1 h c hc)
  simp [isFlat, isQuote, hne (d := '\'') (by decide), hne (d := '"') (by decide),
    hne (d := '`') (by decide), hne (d := '(') (by decide), hne (d := ')') (by decide)]

namespace Reader

variable {c : Char} {cs : List Char}

theorem step_flat (hc : isFlat c = true) (d : Nat) : step ⟨none, d⟩ c = ⟨none, d⟩ := by
  simp only [isFlat, Bool.and_eq_true, Bool.not_eq_true', bne_iff_ne] at hc
  simp [step, hc.1.1, hc.1.2, hc.2]

theorem sees_flat (hc : isFlat c = true) : sees {} c = [c] := by
  simp only [isFlat, Bool.and_eq_true, Bool.not_eq_true', bne_iff_ne] at hc
  simp [sees, hc.1.1, hc.1.2, hc.2]

theorem sees_deep (c : Char) (d : Nat) : sees ⟨none, d + 1⟩ c = [] := by simp [sees]

theorem foldl_flat (h : ∀ c ∈ cs, isFlat c = true) (d : Nat) :
    cs.foldl step ⟨none, d⟩ = ⟨none, d⟩ := by
  induction cs with
  | nil => rfl
  | cons c cs ih =>
    rw [List.foldl_cons, step_flat (h c List.mem_cons_self)]
    exact ih fun c hc => h c (List.mem_cons_of_mem _ hc)

theorem sight_flat (h : ∀ c ∈ cs, isFlat c = true) : sight {} cs = cs := by
  induction cs with
  | nil => rfl
  | cons c cs ih =>
    rw [sight, step_flat (h c List.mem_cons_self), sees_flat (h c List.mem_cons_self)]
    exact congrArg _ (ih fun c hc => h c (List.mem_cons_of_mem _ hc))

theorem sight_flat_deep (h : ∀ c ∈ cs, isFlat c = true) (d : Nat) :
    sight ⟨none, d + 1⟩ cs = [] := by
  induction cs with
  | nil => rfl
  | cons c cs ih =>
    rw [sight, step_flat (h c List.mem_cons_self), sees_deep]
    exact ih fun c hc => h c (List.mem_cons_of_mem _ hc)

theorem step_quoted {q : Char} (d : Nat) (hc : c ≠ q) : step ⟨some q, d⟩ c = ⟨some q, d⟩ := by
  simp [step, hc]

theorem foldl_quoted {q : Char} (d : Nat) (h : q ∉ cs) :
    cs.foldl step ⟨some q, d⟩ = ⟨some q, d⟩ := by
  induction cs with
  | nil => rfl
  | cons c cs ih =>
    have hc : c ≠ q := fun hc => h (hc ▸ List.mem_cons_self)
    rw [List.foldl_cons, step_quoted d hc]
    exact ih fun hq => h (List.mem_cons_of_mem _ hq)

theorem sight_quoted {q : Char} (d : Nat) (h : q ∉ cs) : sight ⟨some q, d⟩ cs = [] := by
  induction cs with
  | nil => rfl
  | cons c cs ih =>
    have hc : c ≠ q := fun hc => h (hc ▸ List.mem_cons_self)
    rw [sight, step_quoted d hc]
    exact ih fun hq => h (List.mem_cons_of_mem _ hq)

end Reader

namespace Balanced

variable {a b : String}

theorem flat (h : IsFlat a) : Balanced a :=
  ⟨Reader.foldl_flat (isFlat_iff.1 h), Reader.sight_flat_deep (isFlat_iff.1 h)⟩

theorem append (ha : Balanced a) (hb : Balanced b) : Balanced (a ++ b) := by
  refine ⟨fun d => ?_, fun d => ?_⟩
  · rw [String.toList_append, List.foldl_append, ha.returns, hb.returns]
  · rw [String.toList_append, Reader.sight_append, ha.hidden, ha.returns, hb.hidden]
    rfl

theorem surface_append (ha : Balanced a) (b : String) :
    surface (a ++ b) = surface a ++ surface b := by
  unfold surface
  rw [String.toList_append, Reader.sight_append, ha.returns]

theorem part {q : Char} (hq : isQuote q = true) {body : List Char} (hbody : q ∉ body) :
    Balanced (String.ofList (part q body)) ∧ surface (String.ofList (part q body)) = [' '] := by
  have hstep (d : Nat) : Reader.step ⟨none, d⟩ q = ⟨some q, d⟩ := by simp [Reader.step, hq]
  have hback (d : Nat) : Reader.step ⟨some q, d⟩ q = ⟨none, d⟩ := by simp [Reader.step]
  have hsight (d : Nat) : Reader.sight ⟨some q, d⟩ (body ++ [q]) = [] := by
    rw [Reader.sight_append, Reader.sight_quoted d hbody, Reader.foldl_quoted d hbody]
    rfl
  refine ⟨⟨fun d => ?_, fun d => ?_⟩, ?_⟩
  · rw [String.toList_ofList, FunctionBody.part, List.foldl_cons, hstep, List.foldl_append,
      Reader.foldl_quoted d hbody]
    exact hback d
  · rw [String.toList_ofList, FunctionBody.part, Reader.sight, Reader.sees_deep, hstep, hsight]
    rfl
  · rw [surface, String.toList_ofList, FunctionBody.part, Reader.sight, hstep, hsight]
    simp [Reader.sees, hq]

theorem parens (h : Balanced a) :
    Balanced ("(" ++ a ++ ")") ∧ surface ("(" ++ a ++ ")") = [' '] := by
  have htext : ("(" ++ a ++ ")").toList = '(' :: (a.toList ++ [')']) := by simp
  have hopen (d : Nat) : Reader.step ⟨none, d⟩ '(' = ⟨none, d + 1⟩ := rfl
  have hclose (d : Nat) : Reader.step ⟨none, d + 1⟩ ')' = ⟨none, d⟩ := rfl
  have hsight (d : Nat) : Reader.sight ⟨none, d + 1⟩ (a.toList ++ [')']) = [] := by
    rw [Reader.sight_append, h.hidden, h.returns]
    simp [Reader.sight, Reader.sees_deep]
  refine ⟨⟨fun d => ?_, fun d => ?_⟩, ?_⟩
  · rw [htext, List.foldl_cons, hopen, List.foldl_append, h.returns]
    exact hclose d
  · rw [htext, Reader.sight, Reader.sees_deep, hopen, hsight]
    rfl
  · rw [surface, htext, Reader.sight, hopen, hsight]
    rfl

theorem parts {q : Char} (hq : isQuote q = true) {bodies : List (List Char)}
    (hb : ∀ b ∈ bodies, q ∉ b) :
    Balanced (String.ofList (bodies.flatMap (FunctionBody.part q))) ∧
      surface (String.ofList (bodies.flatMap (FunctionBody.part q))) =
        List.replicate bodies.length ' ' := by
  induction bodies with
  | nil => exact ⟨flat (a := "") (by decide), rfl⟩
  | cons body bodies ih =>
    obtain ⟨hpart, hblank⟩ := part hq (hb body List.mem_cons_self)
    obtain ⟨hparts, hblanks⟩ := ih fun b h => hb b (List.mem_cons_of_mem _ h)
    rw [List.flatMap_cons, String.ofList_append]
    refine ⟨hpart.append hparts, ?_⟩
    rw [hpart.surface_append, hblank, hblanks]
    rfl

theorem separated {sep : String} (hsep : Balanced sep) {texts : List String}
    (h : ∀ t ∈ texts, Balanced t) : Balanced (separated sep texts) := by
  fun_induction Text.separated sep texts with
  | case1 => exact flat (by decide)
  | case2 x => exact h x List.mem_cons_self
  | case3 x y texts ih =>
    exact ((h x List.mem_cons_self).append hsep).append
      (ih fun t ht => h t (List.mem_cons_of_mem _ ht))

end Balanced

/-- A balanced text with these clauses on its surface. -/
structure Shows (s : String) (ks : List Clause) : Prop where
  balanced : Balanced s
  clauses : clausesIn s = ks

def StartsApart (s : String) : Prop := (surface s).head?.any isDivider = true

def EndsApart (s : String) : Prop := (surface s).getLast?.any isDivider = true

instance (s : String) : Decidable (StartsApart s) :=
  inferInstanceAs (Decidable ((surface s).head?.any isDivider = true))

instance (s : String) : Decidable (EndsApart s) :=
  inferInstanceAs (Decidable ((surface s).getLast?.any isDivider = true))

namespace Shows

variable {a b : String} {ks ls ms : List Clause}

theorem flat (ha : IsFlat a) (h : clausesOf a.toList = ks) : Shows a ks := by
  refine ⟨.flat ha, ?_⟩
  rw [clausesIn, surface, Reader.sight_flat (isFlat_iff.1 ha), h]

theorem numeral (h : ∀ c ∈ a.toList, isNumeralChar c = true) : Shows a [] :=
  flat (isFlat_iff.2 fun c hc => isFlat_of_isNumeralChar (h c hc)) (clausesOf_numeral h)

theorem name (h : a.toList.all Config.isIdentifierChar = true) (hmark : '_' ∈ a.toList) :
    Shows a [] :=
  flat (isFlat_of_isIdentifierChars h) (clausesOf_name h hmark)

theorem append_start (ha : Shows a ks) (hb : Shows b ls) (h : StartsApart b) :
    Shows (a ++ b) (ks ++ ls) := by
  refine ⟨ha.balanced.append hb.balanced, ?_⟩
  rw [← ha.clauses, ← hb.clauses, clausesIn, ha.balanced.surface_append]
  unfold StartsApart at h
  unfold clausesIn
  cases hs : surface b with
  | nil => simp [hs] at h
  | cons c cs =>
    have hc : isDivider c = true := by simpa [hs] using h
    rw [clausesOf_append_cons hc, clausesOf_cons hc]

theorem append_end (ha : Shows a ks) (hb : Shows b ls) (h : EndsApart a) :
    Shows (a ++ b) (ks ++ ls) := by
  refine ⟨ha.balanced.append hb.balanced, ?_⟩
  rw [← ha.clauses, ← hb.clauses, clausesIn, ha.balanced.surface_append]
  unfold EndsApart at h
  unfold clausesIn
  rcases List.eq_nil_or_concat (surface a) with hs | ⟨cs, c, hs⟩
  · simp [hs] at h
  · rw [List.concat_eq_append] at hs
    have hc : isDivider c = true := by simpa [hs] using h
    rw [hs, List.append_assoc, List.singleton_append, clausesOf_append_cons hc,
      clausesOf_append_cons hc]
    simp [show clausesOf [] = [] from rfl]

theorem between {mid : String} (ha : Shows a ks) (hmid : Shows mid ls) (hb : Shows b ms)
    (hstart : StartsApart mid) (hend : EndsApart mid) :
    Shows (a ++ mid ++ b) (ks ++ ls ++ ms) := by
  refine append_end (ha.append_start hmid hstart) hb ?_
  unfold EndsApart at *
  rw [ha.balanced.surface_append, List.getLast?_append]
  cases h : (surface mid).getLast? with
  | none => simp [h] at hend
  | some c => simpa [h] using hend

theorem quoted {q : Char} (hq : isQuote q = true) (s : String) :
    Shows (Text.quoted q s) [] ∧ StartsApart (Text.quoted q s) := by
  obtain ⟨bodies, hne, hbodies, htext⟩ := quoted_eq_parts q s
  obtain ⟨hbalanced, hblanks⟩ := Balanced.parts hq hbodies
  rw [← htext, String.ofList_toList] at hbalanced hblanks
  have hclauses (n : Nat) : clausesOf (List.replicate n ' ') = [] := by
    induction n with
    | zero => rfl
    | succ n ih => rw [List.replicate_succ, clausesOf_cons (by decide), ih]
  refine ⟨⟨hbalanced, by rw [clausesIn, hblanks, hclauses]⟩, ?_⟩
  unfold StartsApart
  rw [hblanks]
  cases bodies with
  | nil => exact absurd rfl hne
  | cons body bodies => rfl

theorem append_quoted {q : Char} (ha : Shows a ks) (hq : isQuote q = true) (s : String) :
    Shows (a ++ Text.quoted q s) ks := by
  obtain ⟨hquoted, hstart⟩ := quoted hq s
  simpa using ha.append_start hquoted hstart

theorem append_parens (ha : Shows a ks) (hb : Balanced b) :
    Shows (a ++ ("(" ++ b ++ ")")) ks := by
  obtain ⟨hparens, hblank⟩ := hb.parens
  have hstart : StartsApart ("(" ++ b ++ ")") := by
    unfold StartsApart
    rw [hblank]
    rfl
  have hclauses : clausesIn ("(" ++ b ++ ")") = [] := by
    rw [clausesIn, hblank]
    rfl
  simpa using ha.append_start ⟨hparens, hclauses⟩ hstart

theorem commas {texts : List String} (h : ∀ t ∈ texts, Shows t []) : Shows (commas texts) [] := by
  unfold Text.commas
  induction texts using Text.separated.induct with
  | case1 => exact flat (by decide) rfl
  | case2 x => exact h x List.mem_cons_self
  | case3 x y texts ih =>
    exact (h x List.mem_cons_self).between (flat (by decide) rfl)
      (ih fun t ht => h t (List.mem_cons_of_mem _ ht)) (by decide) (by decide)

end Shows

end ResolvedSql
