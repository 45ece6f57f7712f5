import Mathlib.Data.List.TakeWhile
import ResolvedSql.Json.Printer
import ResolvedSql.Json.Reader
/-!
Reading undoes writing. A tree without doubles whose parts can all be read is what reading finds in
its text, whatever follows that text. The fuel is enough, since each step of the reader is paid for
by a character.
-/
set_option autoImplicit false

namespace ResolvedSql

open Text

theorem Text.natValue_digits (n : Nat) : natValue (Decimal.digits n) = n := by
  have hfold : natValue (Decimal.digits n) = Nat.ofDigitChars 10 (Nat.toDigits 10 n) 0 := by
    rw [Nat.ofDigitChars_eq_foldl]
    rfl
  rw [hfold, Nat.ofDigitChars_ten_toDigits]

theorem Decimal.isDigit_of_mem_digits {n : Nat} {c : Char} (h : c ∈ digits n) :
    c.isDigit = true :=
  Nat.isDigit_of_mem_toDigits (by decide) (by decide) h

theorem Decimal.digitChar_ne_zero : ∀ n < 10, 0 < n → n.digitChar ≠ '0' := by decide

theorem Decimal.digits_head {n : Nat} (h : 0 < n) : ∃ c r, digits n = c :: r ∧ c ≠ '0' := by
  induction n using Nat.strongRecOn with
  | ind n ih =>
    unfold digits at *
    by_cases hn : n < 10
    · exact ⟨n.digitChar, [], Nat.toDigits_of_lt_base hn, digitChar_ne_zero n hn h⟩
    · obtain ⟨c, r, hcr, hc⟩ := ih (n / 10) (by omega) (by omega)
      exact ⟨c, r ++ [(n % 10).digitChar], by
        rw [Nat.toDigits_of_base_le (by decide) (by omega), hcr]; rfl, hc⟩

theorem Text.span_append {p : Char → Bool} {run rest : List Char} (hrun : ∀ c ∈ run, p c = true)
    (hrest : ∀ c ∈ rest.head?, p c = false) :
    (run ++ rest).takeWhile p = run ∧ (run ++ rest).dropWhile p = rest := by
  rw [List.takeWhile_append_of_pos hrun, List.dropWhile_append_of_pos hrun]
  cases rest with
  | nil => simp
  | cons c rest => simp [hrest c rfl]

theorem Numeral.digits?_append {ds rest : List Char} (hne : ds ≠ [])
    (hds : ∀ c ∈ ds, c.isDigit = true) (hrest : ∀ c ∈ rest.head?, c.isDigit = false) :
    digits? (ds ++ rest) = some (ds, rest) := by
  obtain ⟨htake, hdrop⟩ := Text.span_append hds hrest
  unfold digits?
  rw [htake, hdrop]
  cases ds with
  | nil => exact (hne rfl).elim
  | cons d ds => rfl

namespace Json

/-- What may follow a value. -/
def Ends (rest : List Char) : Prop := ∀ c ∈ rest.head?, c = ',' ∨ c = ']' ∨ c = '\x7d'

theorem ends_nil : Ends [] := by simp [Ends]

theorem ends_cons {c : Char} (h : c = ',' ∨ c = ']' ∨ c = '\x7d') (r : List Char) :
    Ends (c :: r) := by simpa [Ends] using h

theorem Ends.not_digit {rest : List Char} (h : Ends rest) :
    ∀ c ∈ rest.head?, c.isDigit = false := by
  intro c hc
  rcases h c hc with rfl | rfl | rfl <;> decide

theorem read?_digits (negative : Bool) (n : Nat) {rest : List Char} (hrest : Ends rest) :
    Numeral.read? ((if negative then ['-'] else []) ++ (Decimal.digits n ++ rest)) =
      some (⟨negative, Decimal.digits n, none, none⟩, rest) := by
  have hstop : ∀ c ∈ rest.head?, c ≠ '.' ∧ c ≠ 'e' ∧ c ≠ 'E' := by
    intro c hc
    rcases hrest c hc with rfl | rfl | rfl <;> decide
  rcases Nat.eq_zero_or_pos n with rfl | hn
  · have hzero : Decimal.digits 0 = ['0'] := rfl
    rw [hzero]
    cases negative <;> cases rest with
    | nil => rfl
    | cons d rest =>
      obtain ⟨h₁, h₂, h₃⟩ := hstop d rfl
      simp [Numeral.read?, h₁, h₂, h₃]
  · obtain ⟨c, r, hcr, hc⟩ := Decimal.digits_head hn
    have hdigits := fun d => Decimal.isDigit_of_mem_digits (n := n) (c := d)
    have hminus : c ≠ '-' := by
      rintro rfl
      exact absurd (hdigits '-' (by simp [hcr])) (by decide)
    have hread := Numeral.digits?_append (by simp [hcr]) hdigits hrest.not_digit
    rw [hcr] at hread ⊢
    cases negative <;> cases rest with
    | nil => simp_all [Numeral.read?]
    | cons d rest =>
      obtain ⟨h₁, h₂, h₃⟩ := hstop d rfl
      simp_all [Numeral.read?]

theorem number?_digits {n : Int} (h : (Number.integer n).inRange = true) :
    (Numeral.mk (decide (n < 0)) (Decimal.digits n.natAbs) none none).number? =
      some (.integer n) := by
  simp only [Number.inRange, Bool.and_eq_true, decide_eq_true_eq] at h
  simp only [Numeral.number?, natValue_digits, decide_eq_true_eq]
  have hword : twoTo 63 = 0x8000000000000000 ∧ twoTo 64 = 0x10000000000000000 := by decide
  split
  · rw [if_pos (by omega)]
    congr 2
    omega
  · rw [if_pos (by omega)]
    congr 2
    omega

theorem intChars_eq (n : Int) : intChars n =
    (if decide (n < 0) then ['-'] else []) ++ Decimal.digits n.natAbs := by
  unfold intChars
  by_cases h : n < 0 <;> simp [h]

theorem ne_of_startsNumber {c d : Char} (hc : c = '-' ∨ c.isDigit = true)
    (hd : d ≠ '-' ∧ d.isDigit = false) : c ≠ d := by
  rintro rfl
  rcases hc with hc | hc
  · exact hd.1 hc
  · simp [hd.2] at hc

theorem readValue_number {c : Char} (hc : c = '-' ∨ c.isDigit = true) (fuel : Nat)
    (r : List Char) :
    readValue (fuel + 1) (c :: r) = (Numeral.read? (c :: r)).map fun (n, rest) =>
      (match n.number? with | some n => .number n | none => .unreadable, rest) := by
  have hn : c ≠ 'n' := ne_of_startsNumber hc (by decide)
  have ht : c ≠ 't' := ne_of_startsNumber hc (by decide)
  have hf : c ≠ 'f' := ne_of_startsNumber hc (by decide)
  have hq : c ≠ '"' := ne_of_startsNumber hc (by decide)
  have ha : c ≠ '[' := ne_of_startsNumber hc (by decide)
  have ho : c ≠ '\x7b' := ne_of_startsNumber hc (by decide)
  rw [readValue]
  · cases Numeral.read? (c :: r) <;> rfl
  all_goals simp [hn, ht, hf, hq, ha, ho]

/-- How a character of a string is written: a control character without an escape of its own as a
unit, any other as itself. -/
def pieceOf (c : Char) : Piece :=
  if c.toNat < 0x20 ∧ c ∉ ['\x08', '\x0c', '\n', '\r', '\t'] then .unit c.toNat else .plain c

theorem hexNat?_control : ∀ n < 0x20,
    hexNat? ['0', '0', hexDigit (n / 16), hexDigit (n % 16)] = some n := by decide

theorem readPieces_plainEscape {e d : Char} (h : plainEscape? e = some d) (r : List Char) :
    readPieces ('\\' :: e :: r) =
      (readPieces r).map fun (ps, rest) => (.plain d :: ps, rest) := by
  have hu : e ≠ 'u' := by
    rintro rfl
    simp [plainEscape?] at h
  rw [readPieces.eq_4 _ _ (by simp [hu]), h]
  cases readPieces r <;> rfl

theorem readPieces_plain {c : Char} (hq : c ≠ '"') (hb : c ≠ '\\') (h : ¬ c.toNat < 0x20)
    (r : List Char) :
    readPieces (c :: r) = (readPieces r).map fun (ps, rest) => (.plain c :: ps, rest) := by
  rw [readPieces, if_neg (by simp [h, hb])]
  · cases readPieces r <;> rfl
  all_goals simp [hq, hb]

theorem readPieces_escape (c : Char) (r : List Char) :
    readPieces (escape c ++ r) = (readPieces r).map fun (ps, rest) => (pieceOf c :: ps, rest) := by
  have hplain {e : Char} (h : plainEscape? e = some c) (hc : pieceOf c = .plain c) :
      readPieces (['\\', e] ++ r) =
        (readPieces r).map fun (ps, rest) => (pieceOf c :: ps, rest) := by
    rw [hc]
    exact readPieces_plainEscape h r
  unfold escape
  split_ifs with h₁ h₂ h₃ h₄ h₅ h₆ h₇ h₈
  · subst h₁; exact hplain rfl (by decide)
  · subst h₂; exact hplain rfl (by decide)
  · subst h₃; exact hplain rfl (by decide)
  · subst h₄; exact hplain rfl (by decide)
  · subst h₅; exact hplain rfl (by decide)
  · subst h₆; exact hplain rfl (by decide)
  · subst h₇; exact hplain rfl (by decide)
  · have hc : pieceOf c = .unit c.toNat := if_pos ⟨h₈, by simp [h₃, h₄, h₅, h₆, h₇]⟩
    simp only [List.cons_append, List.nil_append]
    rw [readPieces, hexNat?_control c.toNat h₈, hc]
    cases readPieces r <;> rfl
  · have hc : pieceOf c = .plain c := if_neg fun h => h₈ h.1
    rw [hc]
    exact readPieces_plain h₁ h₂ h₈ r

theorem readPieces_escapes (cs rest : List Char) :
    readPieces (cs.flatMap escape ++ '"' :: rest) = some (cs.map pieceOf, rest) := by
  induction cs with
  | nil => rfl
  | cons c cs ih =>
    rw [List.flatMap_cons, List.append_assoc, readPieces_escape, ih]
    rfl

theorem joinPieces_unit {n : Nat} (h : n < 0x20) (ps : List Piece) :
    joinPieces (.unit n :: ps) = (joinPieces ps).map (Char.ofNat n :: ·) := by
  have hhigh : isHigh n = false := by simp [isHigh]; omega
  have hlow : isLow n = false := by simp [isLow]; omega
  cases ps with
  | nil => simp [joinPieces, hhigh, hlow]
  | cons p ps => cases p <;> simp [joinPieces, hhigh, hlow]

theorem joinPieces_map (cs : List Char) : joinPieces (cs.map pieceOf) = some cs := by
  induction cs with
  | nil => rfl
  | cons c cs ih =>
    rw [List.map_cons, pieceOf]
    split
    · rename_i hc
      rw [joinPieces_unit hc.1, ih]
      simp
    · simp [joinPieces, ih]

theorem readString_stringChars (s : String) (rest : List Char) :
    ∃ r, stringChars s ++ rest = '"' :: r ∧ readString r = some (some s, rest) := by
  refine ⟨s.toList.flatMap escape ++ '"' :: rest, by simp [stringChars], ?_⟩
  rw [readString, readPieces_escapes]
  simp [joinPieces_map]

mutual
/-- Whether the text of a tree says all of it: every part can be read, and every number is an
integer in its range. -/
def isExact : Json → Bool
  | .null | .bool _ | .string _ => true
  | .number (.integer n) => (Number.integer n).inRange
  | .number (.real _) => false
  | .array items => allExact items
  | .object members => membersExact members
  | .unreadable => false
def allExact : List Json → Bool
  | [] => true
  | j :: r => j.isExact && allExact r
def membersExact : Members → Bool
  | [] => true
  | (_, j) :: r => j.isExact && membersExact r
end

theorem intChars_head (n : Int) :
    ∃ c r, intChars n = c :: r ∧ (c = '-' ∨ c.isDigit = true) := by
  unfold intChars
  split
  · exact ⟨_, _, rfl, .inl rfl⟩
  · cases h : Decimal.digits n.natAbs with
    | nil => exact (Nat.toDigits_ne_nil h).elim
    | cons c r =>
      exact ⟨c, r, rfl, .inr (Decimal.isDigit_of_mem_digits (h ▸ List.mem_cons_self ..))⟩

theorem chars_head {j : Json} (h : j.isExact = true) :
    ∃ c r, j.chars = c :: r ∧ isSpace c = false ∧ c ≠ ']' := by
  cases j with
  | null => exact ⟨_, _, rfl, by decide, by decide⟩
  | bool b => cases b <;> exact ⟨_, _, rfl, by decide, by decide⟩
  | string s => exact ⟨_, _, rfl, by decide, by decide⟩
  | array items => exact ⟨_, _, rfl, by decide, by decide⟩
  | object members => exact ⟨_, _, rfl, by decide, by decide⟩
  | unreadable => cases h
  | number n =>
    cases n with
    | real d => cases h
    | integer n =>
      obtain ⟨c, r, hcr, hc⟩ := intChars_head n
      have hne (d : Char) (hd : d ≠ '-' ∧ d.isDigit = false) : c ≠ d := ne_of_startsNumber hc hd
      refine ⟨c, r, hcr, ?_, hne ']' (by decide)⟩
      simp [isSpace, hne ' ' (by decide), hne '\t' (by decide), hne '\n' (by decide),
        hne '\r' (by decide)]

theorem skipSpace_cons {c : Char} (h : isSpace c = false) (r : List Char) :
    skipSpace (c :: r) = c :: r := by
  simp [skipSpace, h]

theorem skipSpace_chars {j : Json} (h : j.isExact = true) (rest : List Char) :
    skipSpace (j.chars ++ rest) = j.chars ++ rest := by
  obtain ⟨c, r, hcr, hc, -⟩ := chars_head h
  rw [hcr, List.cons_append, skipSpace_cons hc]

theorem objectOf_map (ms : Members) : objectOf (ms.map fun m => (some m.1, m.2)) = .object ms := by
  have hmap {f : Option String × Json → Option (String × Json)}
      (hf : ∀ k j, f (some k, j) = some (k, j)) :
      (ms.map fun m => (some m.1, m.2)).mapM f = some ms := by
    induction ms with
    | nil => rfl
    | cons m ms ih => simp_all
  rw [objectOf, hmap fun _ _ => rfl]

theorem itemChars_head {j : Json} {js : List Json} (h : allExact (j :: js) = true) :
    ∃ c r, itemChars (j :: js) = c :: r ∧ isSpace c = false ∧ c ≠ ']' := by
  rw [allExact, Bool.and_eq_true] at h
  obtain ⟨c, r, hcr, hc⟩ := chars_head h.1
  cases js with
  | nil => exact ⟨c, r, hcr, hc⟩
  | cons k js => exact ⟨c, r ++ ',' :: itemChars (k :: js), by rw [itemChars, hcr]; rfl, hc⟩

theorem readValue_array {fuel : Nat} {c : Char} {r rest : List Char} {js : List Json}
    (hc : isSpace c = false) (hne : c ≠ ']') (h : readItems fuel (c :: r) = some (js, rest)) :
    readValue (fuel + 1) ('[' :: c :: r) = some (.array js, rest) := by
  rw [readValue, skipSpace_cons hc]
  simp [hne, h]

theorem readValue_object {fuel : Nat} {r rest : List Char} {ms : Members}
    (h : readMembers fuel ('"' :: r) = some (ms.map fun m => (some m.1, m.2), rest)) :
    readValue (fuel + 1) ('\x7b' :: '"' :: r) = some (.object ms, rest) := by
  rw [readValue, skipSpace_cons (by decide)]
  simp [h, objectOf_map]

theorem memberChars_head (m : String × Json) (ms : Members) :
    ∃ r, memberChars (m :: ms) = '"' :: r := by
  cases ms with
  | nil => exact ⟨_, rfl⟩
  | cons m' ms => exact ⟨_, rfl⟩

theorem readMembers_member {fuel : Nat} {k : String} {j : Json} {rest : List Char}
    (hj : j.isExact = true) (hread : readValue fuel (j.chars ++ rest) = some (j, rest)) :
    readMembers (fuel + 1) (stringChars k ++ ':' :: (j.chars ++ rest)) =
      match skipSpace rest with
      | ',' :: r =>
        (readMembers fuel (skipSpace r)).map fun (ms, rest) => ((some k, j) :: ms, rest)
      | '\x7d' :: r => some ([(some k, j)], r)
      | _ => none := by
  obtain ⟨r, hr, hkey⟩ := readString_stringChars k (':' :: (j.chars ++ rest))
  rw [hr, readMembers, hkey]
  simp only [Option.bind_eq_bind, Option.bind_some, skipSpace_cons (c := ':') (by decide),
    skipSpace_chars hj, hread]
  rfl

mutual
theorem readValue_chars : (j : Json) → (fuel : Nat) → (rest : List Char) → j.isExact = true →
    j.chars.length ≤ fuel → Ends rest → readValue fuel (j.chars ++ rest) = some (j, rest)
  | j, 0, rest, hj, hfuel, _ => by
    obtain ⟨c, r, hcr, -⟩ := chars_head hj
    simp [hcr] at hfuel
  | .null, fuel + 1, rest, _, _, _ => rfl
  | .bool true, fuel + 1, rest, _, _, _ => rfl
  | .bool false, fuel + 1, rest, _, _, _ => rfl
  | .string s, fuel + 1, rest, _, _, _ => by
    obtain ⟨r, hr, hread⟩ := readString_stringChars s rest
    rw [chars, hr, readValue, hread]
    rfl
  | .number (.integer n), fuel + 1, rest, hj, _, hrest => by
    have hread := read?_digits (decide (n < 0)) n.natAbs hrest
    rw [← List.append_assoc, ← intChars_eq] at hread
    obtain ⟨c, r, hcr, hc⟩ := intChars_head n
    rw [hcr, List.cons_append] at hread
    rw [chars, Number.chars, hcr, List.cons_append, readValue_number hc, hread]
    simp [number?_digits hj]
  | .array [], fuel + 1, rest, _, _, _ => rfl
  | .array (j :: js), fuel + 1, rest, hj, hfuel, _ => by
    have hfuel : (itemChars (j :: js)).length + 1 ≤ fuel := by
      simp [chars] at hfuel
      omega
    have hread := readItems_chars (j :: js) fuel rest (by simp) hj hfuel
    obtain ⟨c, r, hcr, hc, hne⟩ := itemChars_head hj
    rw [hcr, List.cons_append] at hread
    have htext : (Json.array (j :: js)).chars ++ rest = '[' :: c :: (r ++ ']' :: rest) := by
      simp [chars, hcr]
    rw [htext, readValue_array hc hne hread]
  | .object [], fuel + 1, rest, _, _, _ => rfl
  | .object (m :: ms), fuel + 1, rest, hj, hfuel, _ => by
    have hfuel : (memberChars (m :: ms)).length + 1 ≤ fuel := by
      simp [chars] at hfuel
      omega
    have hread := readMembers_chars (m :: ms) fuel rest (by simp) hj hfuel
    obtain ⟨r, hr⟩ := memberChars_head m ms
    rw [hr, List.cons_append] at hread
    have htext : (Json.object (m :: ms)).chars ++ rest =
        '\x7b' :: '"' :: (r ++ '\x7d' :: rest) := by
      simp [chars, hr]
    rw [htext, readValue_object hread]
theorem readItems_chars : (js : List Json) → (fuel : Nat) → (rest : List Char) → js ≠ [] →
    allExact js = true → (itemChars js).length + 1 ≤ fuel →
    readItems fuel (itemChars js ++ ']' :: rest) = some (js, rest)
  | js, 0, rest, _, _, hfuel => by simp at hfuel
  | [j], fuel + 1, rest, _, hj, hfuel => by
    simp only [allExact, Bool.and_true] at hj
    have hread := readValue_chars j fuel (']' :: rest) hj (by simpa [itemChars] using hfuel)
      (ends_cons (by simp) _)
    rw [itemChars, readItems, hread]
    simp [skipSpace_cons (c := ']') (by decide)]
  | j :: k :: js, fuel + 1, rest, _, hj, hfuel => by
    rw [allExact, Bool.and_eq_true] at hj
    have hlength : j.chars.length + (itemChars (k :: js)).length + 1 ≤ fuel := by
      simp [itemChars] at hfuel
      omega
    have hread := readValue_chars j fuel (',' :: (itemChars (k :: js) ++ ']' :: rest)) hj.1
      (by omega) (ends_cons (by simp) _)
    have hitems := readItems_chars (k :: js) fuel rest (by simp) hj.2 (by omega)
    obtain ⟨c, r, hcr, hc, -⟩ := itemChars_head hj.2
    have htext : itemChars (j :: k :: js) ++ ']' :: rest =
        j.chars ++ ',' :: (itemChars (k :: js) ++ ']' :: rest) := by
      simp [itemChars]
    rw [htext, readItems, hread]
    rw [hcr, List.cons_append] at hitems ⊢
    simp [skipSpace_cons (c := ',') (by decide), skipSpace_cons hc, hitems]
theorem readMembers_chars : (ms : Members) → (fuel : Nat) → (rest : List Char) → ms ≠ [] →
    membersExact ms = true → (memberChars ms).length + 1 ≤ fuel →
    readMembers fuel (memberChars ms ++ '\x7d' :: rest) =
      some (ms.map fun m => (some m.1, m.2), rest)
  | ms, 0, rest, _, _, hfuel => by simp at hfuel
  | [(k, j)], fuel + 1, rest, _, hj, hfuel => by
    simp only [membersExact, Bool.and_true] at hj
    have hlength : j.chars.length ≤ fuel := by
      simp [memberChars] at hfuel
      omega
    have hread := readValue_chars j fuel ('\x7d' :: rest) hj hlength (ends_cons (by simp) _)
    have htext : memberChars [(k, j)] ++ '\x7d' :: rest =
        stringChars k ++ ':' :: (j.chars ++ '\x7d' :: rest) := by
      simp [memberChars]
    rw [htext, readMembers_member hj hread, skipSpace_cons (by decide)]
    rfl
  | (k, j) :: m :: ms, fuel + 1, rest, _, hj, hfuel => by
    rw [membersExact, Bool.and_eq_true] at hj
    have hlength : j.chars.length + (memberChars (m :: ms)).length + 1 ≤ fuel := by
      simp [memberChars] at hfuel
      omega
    have hread := readValue_chars j fuel (',' :: (memberChars (m :: ms) ++ '\x7d' :: rest)) hj.1
      (by omega) (ends_cons (by simp) _)
    have hmembers := readMembers_chars (m :: ms) fuel rest (by simp) hj.2 (by omega)
    obtain ⟨r, hr⟩ := memberChars_head m ms
    have htext : memberChars ((k, j) :: m :: ms) ++ '\x7d' :: rest =
        stringChars k ++ ':' :: (j.chars ++ ',' :: (memberChars (m :: ms) ++ '\x7d' :: rest)) := by
      simp [memberChars]
    rw [htext, readMembers_member hj.1 hread, skipSpace_cons (by decide)]
    rw [hr, List.cons_append] at hmembers ⊢
    simp [skipSpace_cons (c := '"') (by decide), hmembers]
end

theorem ofText?_text {j : Json} (h : j.isExact = true) : ofText? j.text = some j := by
  have hread := readValue_chars j (2 * j.chars.length + 2) [] h (by omega) ends_nil
  have hskip := skipSpace_chars h []
  rw [List.append_nil] at hread hskip
  rw [ofText?, text, String.toList_ofList, hskip, hread]
  rfl

end Json
end ResolvedSql
