import ResolvedSql.Proofs.NumericText
import ResolvedSql.Proofs.QuotedNames
set_option autoImplicit false

namespace ResolvedSql

open Text

/-- A constant of the target. A number with a point is kept by its digits. -/
inductive Constant where
  | null
  | bool (b : Bool)
  | integer (n : Int)
  | decimal (negative : Bool) (whole fraction : List Char)
  | string (s : String)
  | blob (bs : List UInt8)

namespace Constant

def sign (negative : Bool) : List Char := if negative then ['-'] else []

def integerOf (negative : Bool) (digits : List Char) : Constant :=
  .integer (if negative then -(natValue digits : Int) else natValue digits)

/-- A text and how it stands between quotes: every quote in it is doubled. -/
inductive Doubled : List Char → List Char → Prop
  | nil : Doubled [] []
  | plain {c : Char} {s t : List Char} (hc : c ≠ '\'') (h : Doubled s t) :
    Doubled (c :: s) (c :: t)
  | quote {s t : List Char} (h : Doubled s t) : Doubled ('\'' :: s) ('\'' :: '\'' :: t)

def hexDigits : List Char := "0123456789ABCDEF".toList

/-- The bytes that pairs of hexadecimal digits stand for. -/
def bytes? : List Char → Option (List UInt8)
  | [] => some []
  | [_] => none
  | a :: b :: r => do
    let high ← hexValue? a
    let low ← hexValue? b
    let bs ← bytes? r
    return UInt8.ofNat (16 * high + low) :: bs

inductive Written : Constant → List Char → Prop
  | null : Written .null "NULL".toList
  | bool (b : Bool) : Written (.bool b) (if b then "TRUE" else "FALSE").toList
  | integer (negative : Bool) {digits : List Char} (hne : digits ≠ [])
    (hdigits : Literal.AreDigits digits) :
    Written (integerOf negative digits) (sign negative ++ digits)
  | decimal (negative : Bool) {whole fraction : List Char} (hwhole : whole ≠ [])
    (hfraction : fraction ≠ []) (hdigits : Literal.AreDigits (whole ++ fraction)) :
    Written (.decimal negative whole fraction) (sign negative ++ (whole ++ '.' :: fraction))
  | string {s t : List Char} (h : Doubled s t) :
    Written (.string (String.ofList s)) ('\'' :: (t ++ ['\'']))
  | blob {bs : List UInt8} {hex : List Char} (hhex : ∀ c ∈ hex, c ∈ hexDigits)
    (heven : hex.length % 2 = 0) (hbytes : bytes? hex = some bs) :
    Written (.blob bs) ('X' :: '\'' :: (hex ++ ['\'']))

def isWordChar (c : Char) : Bool := c.isAlphanum || c = '_'

def Ends (rest : List Char) : Prop := ∀ c ∈ rest.head?, isWordChar c = false ∧ c ≠ '.'

/-- What may follow a constant without being read as part of it. -/
def Stops : Constant → List Char → Prop
  | .string _, rest | .blob _, rest => rest.head? ≠ some '\''
  | _, rest => Ends rest

def readNumber (negative : Bool) (cs : List Char) : Option (Constant × List Char) := do
  let (digits, rest) ← Numeral.digits? cs
  match rest with
  | '.' :: r =>
    let (fraction, rest) ← Numeral.digits? r
    return (.decimal negative digits fraction, rest)
  | _ => return (integerOf negative digits, rest)

def ofWord? (word : List Char) : Option Constant :=
  match String.ofList word with
  | "NULL" => some .null
  | "TRUE" => some (.bool true)
  | "FALSE" => some (.bool false)
  | _ => none

def read? : List Char → Option (Constant × List Char)
  | '\'' :: r => (undouble '\'' r).map fun (s, rest) => (.string (String.ofList s), rest)
  | 'X' :: '\'' :: r => do
    let (hex, rest) ← undouble '\'' r
    let bs ← bytes? hex
    return (.blob bs, rest)
  | '-' :: r => readNumber true r
  | cs =>
    match readNumber false cs with
    | some result => some result
    | none => (ofWord? (cs.takeWhile isWordChar)).map (·, cs.dropWhile isWordChar)

theorem doubled_double (s : List Char) : Doubled s (double '\'' s) := by
  induction s with
  | nil => exact .nil
  | cons c s ih =>
    by_cases hc : c = '\''
    · subst hc
      exact .quote ih
    · rw [double, if_neg hc]
      exact .plain hc ih

theorem Doubled.eq_double {s t : List Char} (h : Doubled s t) : t = double '\'' s := by
  induction h with
  | nil => rfl
  | plain hc _ ih => rw [double, if_neg hc, ih]
  | quote _ ih => rw [double, if_pos rfl, ih]

theorem double_of_not_mem {q : Char} {s : List Char} (h : q ∉ s) : double q s = s := by
  induction s with
  | nil => rfl
  | cons c s ih =>
    rw [List.mem_cons, not_or] at h
    rw [double, if_neg (Ne.symm h.1), ih h.2]

theorem Ends.not_digit {rest : List Char} (h : Ends rest) :
    ∀ c ∈ rest.head?, c.isDigit = false := by
  intro c hc
  have hword := (h c hc).1
  simp only [isWordChar, Char.isAlphanum, Bool.or_eq_false_iff] at hword
  exact hword.1.2

theorem readNumber_integer (negative : Bool) {digits rest : List Char} (hne : digits ≠ [])
    (hdigits : Literal.AreDigits digits) (hrest : Ends rest) :
    readNumber negative (digits ++ rest) = some (integerOf negative digits, rest) := by
  rw [readNumber, Numeral.digits?_append hne hdigits hrest.not_digit]
  cases rest with
  | nil => rfl
  | cons c r =>
    have hpoint : c ≠ '.' := (hrest c rfl).2
    simp [hpoint]

theorem readNumber_decimal (negative : Bool) {whole fraction rest : List Char} (hwhole : whole ≠ [])
    (hfraction : fraction ≠ []) (hdigits : Literal.AreDigits (whole ++ fraction))
    (hrest : Ends rest) :
    readNumber negative (whole ++ '.' :: (fraction ++ rest)) =
      some (.decimal negative whole fraction, rest) := by
  have hpoint : ∀ c ∈ ('.' :: (fraction ++ rest)).head?, c.isDigit = false := by simp
  rw [readNumber, Numeral.digits?_append hwhole (fun c hc => hdigits c (by simp [hc])) hpoint]
  simp [Numeral.digits?_append hfraction (fun c hc => hdigits c (by simp [hc])) hrest.not_digit]

theorem read?_number (negative : Bool) {digits r rest : List Char} {c : Constant}
    (hne : digits ≠ []) (hdigits : Literal.AreDigits digits)
    (h : readNumber negative (digits ++ r) = some (c, rest)) :
    read? (sign negative ++ (digits ++ r)) = some (c, rest) := by
  cases negative with
  | true => exact h
  | false =>
    cases digits with
    | nil => exact (hne rfl).elim
    | cons d digits =>
      have hd : d.isDigit = true := hdigits d (by simp)
      have hquote : d ≠ '\'' := Literal.ne_of_isDigit hd (by decide)
      have hblob : d ≠ 'X' := Literal.ne_of_isDigit hd (by decide)
      have hminus : d ≠ '-' := Literal.ne_of_isDigit hd (by decide)
      rw [List.cons_append] at h ⊢
      simp only [sign, Bool.false_eq_true, if_false, List.nil_append]
      rw [read?, h]
      all_goals simp [hquote, hblob, hminus]

theorem read?_word {word : String} {rest : List Char} {c : Constant}
    (hword : word ∈ ["NULL", "TRUE", "FALSE"]) (hc : ofWord? word.toList = some c)
    (hrest : ∀ c ∈ rest.head?, isWordChar c = false) :
    read? (word.toList ++ rest) = some (c, rest) := by
  have hchars : ∀ w ∈ ["NULL", "TRUE", "FALSE"], w.toList.all isWordChar = true := by decide
  obtain ⟨htake, hdrop⟩ := span_append (List.all_eq_true.1 (hchars word hword)) hrest
  have hread : read? (word.toList ++ rest) =
      (ofWord? ((word.toList ++ rest).takeWhile isWordChar)).map
        (·, (word.toList ++ rest).dropWhile isWordChar) := by
    simp only [List.mem_cons, List.not_mem_nil, or_false] at hword
    rcases hword with rfl | rfl | rfl <;> rfl
  rw [hread, htake, hdrop, hc]
  rfl

theorem Written.ne_nil {c : Constant} {cs : List Char} (h : Written c cs) : cs ≠ [] := by
  cases h with
  | null => simp
  | bool b => cases b <;> simp
  | integer _ hne => simp [hne]
  | decimal => simp
  | string => simp
  | blob => simp

theorem not_mem_of_hexDigits {hex : List Char} (h : ∀ c ∈ hex, c ∈ hexDigits) : '\'' ∉ hex :=
  fun hmem => absurd (h _ hmem) (by decide)

/-- A constant is read up to its end, and nothing after it. -/
theorem Written.read? {c : Constant} {cs rest : List Char} (h : Written c cs)
    (hrest : c.Stops rest) : Constant.read? (cs ++ rest) = some (c, rest) := by
  cases h with
  | null => exact read?_word (by simp) rfl fun c hc => (hrest c hc).1
  | bool b => cases b <;> exact read?_word (by simp) rfl fun c hc => (hrest c hc).1
  | integer negative hne hdigits =>
    rw [List.append_assoc]
    exact read?_number negative hne hdigits (readNumber_integer negative hne hdigits hrest)
  | decimal negative hwhole hfraction hdigits =>
    rw [List.append_assoc, List.append_assoc, List.cons_append]
    exact read?_number negative hwhole (fun c hc => hdigits c (by simp [hc]))
      (readNumber_decimal negative hwhole hfraction hdigits hrest)
  | @string s t h =>
    have hread := undouble_double s hrest
    rw [← h.eq_double] at hread
    simp [Constant.read?, hread]
  | @blob bs hex hhex heven hbytes =>
    have hread := undouble_double hex hrest
    rw [double_of_not_mem (not_mem_of_hexDigits hhex)] at hread
    simp [Constant.read?, hread, hbytes]

theorem stops_nil (c : Constant) : c.Stops [] := by
  cases c <;> simp [Stops, Ends]

theorem Written.unique {c d : Constant} {cs : List Char} (hc : Written c cs) (hd : Written d cs) :
    c = d := by
  have hread := hc.read? (stops_nil c)
  rw [hd.read? (stops_nil d)] at hread
  simpa using hread.symm

end Constant

open Constant

theorem Literal.quote_written (s : String) : Written (.string s) (quote s).toList := by
  have h := Written.string (doubled_double s.toList)
  rw [String.ofList_toList] at h
  rwa [quote, quoted, String.toList_ofList]

theorem intChars_written (n : Int) : Written (.integer n) (intChars n) := by
  have hne : Decimal.digits n.natAbs ≠ [] := Nat.toDigits_ne_nil
  have h := Written.integer (decide (n < 0)) hne fun c => Decimal.isDigit_of_mem_digits
  have hvalue : integerOf (decide (n < 0)) (Decimal.digits n.natAbs) = .integer n := by
    unfold integerOf
    rw [natValue_digits]
    congr 1
    simp only [decide_eq_true_eq]
    split
    · omega
    · omega
  rw [hvalue] at h
  rwa [Json.intChars_eq]

theorem Literal.AreDigits.append {a b : List Char} (ha : AreDigits a) (hb : AreDigits b) :
    AreDigits (a ++ b) := by
  intro c hc
  exact (List.mem_append.1 hc).elim (ha c) (hb c)

theorem Decimal.plain_eq (d : Decimal) : ∃ whole fraction, d.plain = whole ++ '.' :: fraction ∧
    whole ≠ [] ∧ fraction ≠ [] ∧ Literal.AreDigits (whole ++ fraction) := by
  have hne : digits d.coefficient ≠ [] := Nat.toDigits_ne_nil
  have hdigits : Literal.AreDigits (digits d.coefficient) := fun c => isDigit_of_mem_digits
  have hzeros (n : Nat) : Literal.AreDigits (zeros n) := by
    intro c hc
    rw [List.eq_of_mem_replicate hc]
    decide
  unfold plain
  simp only
  split
  · refine ⟨['0'], _, rfl, by simp, by simp [hne], ?_⟩
    exact Literal.AreDigits.append (hzeros 1) (.append (hzeros _) hdigits)
  · split
    · refine ⟨_, ['0'], rfl, by simp [hne], by simp, ?_⟩
      exact .append (.append hdigits (hzeros _)) (hzeros 1)
    · rename_i hx hlength
      refine ⟨_, _, rfl, ?_, ?_, by rwa [List.take_append_drop]⟩
      · rw [Ne, List.take_eq_nil_iff]
        simp [hne]
        omega
      · rw [Ne, List.drop_eq_nil_iff]
        omega

namespace Literal

/-- What the literal of a value is read as. Times and nested values are strings; a double is a
numeral, or a string if it is no number. -/
inductive ReadAs : Value → Constant → Prop
  | null : ReadAs .null .null
  | bool (b : Bool) : ReadAs (.bool b) (.bool b)
  | int (n : Int64) : ReadAs (.int n) (.integer n.toInt)
  | finite {d : Float} {negative : Bool} {m : Nat} {e : Int} (whole fraction : List Char)
    (h : Binary64.ofBits d.toBits = .finite negative m e) :
    ReadAs (.double d) (.decimal negative whole fraction)
  | nan {d : Float} (h : Binary64.ofBits d.toBits = .nan) : ReadAs (.double d) (.string "NaN")
  | infinite {d : Float} {negative : Bool} (h : Binary64.ofBits d.toBits = .infinite negative) :
    ReadAs (.double d) (.string (if negative then "-Infinity" else "Infinity"))
  | numeric (s : String) : ReadAs (.numeric s) (.string s)
  | string (s : String) : ReadAs (.string s) (.string s)
  | bytes (bs : List UInt8) : ReadAs (.bytes bs) (.blob bs)
  | date (d : Date) : ReadAs (.date d) (.string d.text)
  | timestamp (t : Timestamp) : ReadAs (.timestamp t) (.string t.text)
  | json (d : Document) : ReadAs (.json d) (.string d.json.text)
  | array (items : List Value) : ReadAs (.array items) (.string (Value.array items).nested.text)
  | struct (fields : List ValueField) :
    ReadAs (.struct fields) (.string (Value.struct fields).nested.text)

theorem double_written (d : Float) : ∃ c, Written c (double d).toList ∧ ReadAs (.double d) c := by
  unfold double
  split
  · rename_i h
    exact ⟨_, quote_written _, .nan h⟩
  · rename_i h
    exact ⟨_, quote_written _, .infinite h⟩
  · rename_i h
    exact ⟨_, quote_written _, .infinite h⟩
  · rename_i negative m e h
    obtain ⟨whole, fraction, hplain, hwhole, hfraction, hdigits⟩ :=
      (Decimal.shortest doubleLayout.tie m e).plain_eq
    refine ⟨_, ?_, .finite whole fraction h⟩
    have hwritten := Written.decimal negative hwhole hfraction hdigits
    rw [← hplain] at hwritten
    cases negative <;> simpa [Decimal.Layout.write, doubleLayout, sign] using hwritten

theorem upperHexDigit_mem : ∀ n < 16, upperHexDigit n ∈ hexDigits := by decide

theorem hexValue?_upperHexDigit : ∀ n < 16, hexValue? (upperHexDigit n) = some n := by decide

def hexPair (b : UInt8) : List Char :=
  [upperHexDigit (b.toNat / 16), upperHexDigit (b.toNat % 16)]

theorem mem_hexDigits_of_mem_hexPair {b : UInt8} {c : Char} (h : c ∈ hexPair b) :
    c ∈ hexDigits := by
  have hb := b.toNat_lt
  simp only [hexPair, List.mem_cons, List.not_mem_nil, or_false] at h
  rcases h with rfl | rfl
  · exact upperHexDigit_mem _ (by omega)
  · exact upperHexDigit_mem _ (by omega)

theorem bytes?_hexPairs (bs : List UInt8) : bytes? (bs.flatMap hexPair) = some bs := by
  induction bs with
  | nil => rfl
  | cons b bs ih =>
    have hb := b.toNat_lt
    have hhigh := hexValue?_upperHexDigit (b.toNat / 16) (by omega)
    have hlow := hexValue?_upperHexDigit (b.toNat % 16) (by omega)
    have hbyte : UInt8.ofNat (16 * (b.toNat / 16) + b.toNat % 16) = b := by
      rw [Nat.div_add_mod]
      exact UInt8.ofNat_toNat
    simp only [List.flatMap_cons, hexPair, List.cons_append, List.nil_append, bytes?, hhigh, hlow,
      ih, Option.bind_eq_bind, Option.bind_some, Option.pure_def, hbyte]

theorem length_hexPairs (bs : List UInt8) : (bs.flatMap hexPair).length = 2 * bs.length := by
  induction bs with
  | nil => rfl
  | cons b bs ih =>
    simp only [List.flatMap_cons, List.length_append, List.length_cons, ih, hexPair,
      List.length_nil]
    omega

theorem bytes_written (bs : List UInt8) : Written (.blob bs) (bytes bs).toList := by
  have hhex : ∀ c ∈ bs.flatMap hexPair, c ∈ hexDigits := by
    intro c hc
    obtain ⟨b, -, hb⟩ := List.mem_flatMap.1 hc
    exact mem_hexDigits_of_mem_hexPair hb
  have heven : (bs.flatMap hexPair).length % 2 = 0 := by
    rw [length_hexPairs]
    omega
  have hwritten := Written.blob hhex heven (bytes?_hexPairs bs)
  have htext : (bytes bs).toList =
      'X' :: '\'' :: (Text.double '\'' (bs.flatMap hexPair) ++ ['\'']) := by
    have hpairs : bytes bs = "X" ++ quote (String.ofList (bs.flatMap hexPair)) := rfl
    simp [hpairs, quote, quoted]
  rwa [htext, double_of_not_mem (not_mem_of_hexDigits hhex)]

theorem encode_written {v : Value} {type : SqlType} {sql : String}
    (h : encode v type = .ok sql) : ∃ c, Written c sql.toList ∧ ReadAs v c := by
  cases v with
  | null =>
    cases h
    exact ⟨_, .null, .null⟩
  | bool b =>
    cases h
    exact ⟨_, .bool b, .bool b⟩
  | int n =>
    cases h
    rw [String.toList_ofList]
    exact ⟨_, intChars_written n.toInt, .int n⟩
  | double d =>
    cases h
    exact double_written d
  | numeric s =>
    rw [encode] at h
    split at h
    · cases h
      exact ⟨_, quote_written s, .numeric s⟩
    · cases h
  | string s =>
    cases h
    exact ⟨_, quote_written s, .string s⟩
  | bytes bs =>
    cases h
    exact ⟨_, bytes_written bs, .bytes bs⟩
  | date d =>
    rw [encode, Except.ok.injEq] at h
    exact ⟨_, h ▸ quote_written _, .date d⟩
  | timestamp t =>
    rw [encode, Except.ok.injEq] at h
    exact ⟨_, h ▸ quote_written _, .timestamp t⟩
  | json d =>
    rw [encode, Except.ok.injEq] at h
    exact ⟨_, h ▸ quote_written _, .json d⟩
  | array items =>
    rw [encode, Except.ok.injEq] at h
    exact ⟨_, h ▸ quote_written _, .array items⟩
  | struct fields =>
    rw [encode, Except.ok.injEq] at h
    exact ⟨_, h ▸ quote_written _, .struct fields⟩

theorem encode_fails_iff (v : Value) (type : SqlType) :
    (∃ e, encode v type = .error e) ↔ ∃ s, v = .numeric s ∧ ¬ NumericText s.toList := by
  cases v with
  | numeric s =>
    simp only [encode, ← isNumeric_iff]
    split
    · simp_all
    · simp_all
  | _ => simp [encode]

/-- Values of one kind, where the kind is one that literals tell all of. -/
inductive SameKind : Value → Value → Prop
  | int (m n : Int64) : SameKind (.int m) (.int n)
  | string (s t : String) : SameKind (.string s) (.string t)
  | numeric (s t : String) : SameKind (.numeric s) (.numeric t)
  | bytes (as bs : List UInt8) : SameKind (.bytes as) (.bytes bs)

theorem SameKind.eq_of_readAs {v w : Value} {c : Constant} (h : SameKind v w) (hv : ReadAs v c)
    (hw : ReadAs w c) : v = w := by
  cases h with
  | int m n =>
    cases hv
    generalize hc : Constant.integer m.toInt = c at hw
    cases hw
    rw [Constant.integer.injEq, Int64.toInt_inj] at hc
    rw [hc]
  | string s t | numeric s t | bytes as bs =>
    cases hv
    cases hw
    rfl

/-- Encoding fails for a numeric whose text is no number, and for nothing else. A literal is written
for one constant, the one that its value is read as, and reading it stops where the literal ends; a
string or blob may be followed by anything but a quote. So a literal tells all of an integer, a
string, a numeric or bytes. -/
theorem encode_reads_back :
    (∀ v type, (∃ e, encode v type = .error e) ↔
      ∃ s, v = .numeric s ∧ ¬ NumericText s.toList) ∧
    (∀ v type sql, encode v type = .ok sql → ∃ c, (∀ d, Written d sql.toList ↔ d = c) ∧
      ReadAs v c ∧ ∀ rest, c.Stops rest → read? (sql.toList ++ rest) = some (c, rest)) ∧
    ∀ v w type type' sql, SameKind v w → encode v type = .ok sql → encode w type' = .ok sql →
      v = w := by
  refine ⟨encode_fails_iff, fun v type sql h => ?_, fun v w type type' sql hvw hv hw => ?_⟩
  · obtain ⟨c, hwritten, hc⟩ := encode_written h
    refine ⟨c, fun d => ⟨fun hd => hd.unique hwritten, ?_⟩, hc, fun rest => hwritten.read?⟩
    rintro rfl
    exact hwritten
  · obtain ⟨c, hc, hvc⟩ := encode_written hv
    obtain ⟨d, hd, hwd⟩ := encode_written hw
    exact hvw.eq_of_readAs hvc (hc.unique hd ▸ hwd)

theorem quotes_reads_back :
    read? "'''it''''s' = 'x'".toList = some (.string "'it''s", " = 'x'".toList) := by
  have hsql : encode (.string "'it''s") (.scalar .string) = .ok "'''it''''s'" := rfl
  obtain ⟨-, hread, -⟩ := encode_reads_back
  obtain ⟨c, -, hc, hrest⟩ := hread _ _ _ hsql
  cases hc
  exact hrest " = 'x'".toList (by simp [Stops])

end Literal
end ResolvedSql
