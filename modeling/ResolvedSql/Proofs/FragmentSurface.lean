import ResolvedSql.Proofs.KeyedNames
import ResolvedSql.Proofs.Surface
set_option autoImplicit false

namespace ResolvedSql

open Text Render FunctionBody

theorem Literal.encode_shows {v : Value} {type : SqlType} {sql : String}
    (h : encode v type = .ok sql) : Shows sql [] := by
  have hnames : ∀ name ∈ ["NULL", "TRUE", "FALSE"], IsFlat name ∧ clausesOf name.toList = [] := by
    decide
  have hleads : ∀ lead ∈ ["", "X"], IsFlat lead ∧ clausesOf lead.toList = [] := by decide
  rcases encode_form h with hname | hnumeral | ⟨lead, hlead, s, rfl⟩
  · exact .flat (hnames sql hname).1 (hnames sql hname).2
  · exact .numeral hnumeral
  · exact .append_quoted (.flat (hleads lead hlead).1 (hleads lead hlead).2) (by decide) s

theorem SqlType.family_isIdentifier (type : SqlType) :
    type.family.toList.all Config.isIdentifierChar = true := by
  cases type with
  | scalar type => cases type <;> decide
  | array => exact (by decide : "array".toList.all Config.isIdentifierChar = true)
  | struct => exact (by decide : "struct".toList.all Config.isIdentifierChar = true)

theorem Config.isFlat_of_isIdentifier {s : String} (h : isIdentifier s = true) : IsFlat s :=
  isFlat_of_isIdentifierChars (Bool.and_eq_true_iff.1 h).2

theorem Catalog.mangle_shows (catalog : Catalog) {lead bare : String}
    (hlead : Config.isIdentifier lead = true)
    (hbare : bare.toList.all Config.isIdentifierChar = true) (type : SqlType) :
    Shows (catalog.mangle lead bare type) [] := by
  have hlead : lead.toList.all Config.isIdentifierChar = true := (Bool.and_eq_true_iff.1 hlead).2
  have hstem : (catalog.stem lead).toList.all Config.isIdentifierChar = true := by
    have hwindow : "_window".toList.all Config.isIdentifierChar = true := by decide
    unfold Catalog.stem
    split
    · rw [String.toList_append, List.all_append, hlead, hwindow]
      rfl
    · exact hlead
  have hmark : "_".toList.all Config.isIdentifierChar = true := by decide
  have htext : (catalog.mangle lead bare type).toList = (catalog.stem lead).toList ++ "_".toList ++
      bare.toList ++ "_".toList ++ type.family.toList := by
    simp only [Catalog.mangle, String.toList_append]
  refine .name ?_ ?_
  · rw [htext]
    simp only [List.all_append, hstem, hmark, hbare, type.family_isIdentifier, Bool.and_self]
  · simp [htext]

namespace Render

variable {lead name input : String} {texts : List String} {ks : List Clause}

theorem quoteName_shows (s : String) : Shows (quoteName s) [] := (Shows.quoted (by decide) s).1

theorem callText_shows (hname : Shows name []) (h : ∀ t ∈ texts, Balanced t) :
    Shows (callText name texts) [] := by
  have htext : callText name texts = name ++ ("(" ++ commas texts ++ ")") :=
    String.toList_inj.1 (by simp [callText])
  rw [htext]
  exact hname.append_parens (.separated (.flat (by decide)) h)

theorem optionCall_balanced (hlead : IsFlat lead) (hname : IsFlat name)
    (h : ∀ t ∈ texts, Balanced t) : Balanced (optionCall lead name texts) := by
  have htext : optionCall lead name texts =
      lead ++ "_" ++ name ++ "_string" ++ ("(" ++ separated ", " texts ++ ")") :=
    String.toList_inj.1 (by simp [optionCall])
  rw [htext]
  have hfront := (((Balanced.flat hlead).append (.flat (by decide : IsFlat "_"))).append
    (.flat hname)).append (.flat (by decide : IsFlat "_string"))
  exact hfront.append (Balanced.parens (.separated (.flat (by decide)) h)).1

theorem boolText_balanced (b : Bool) : Balanced (boolText b) := by
  cases b <;> exact .flat (by decide)

theorem orderText_shows (item : OrderItem) : Shows (orderText item) [] := by
  unfold orderText
  split
  · exact (quoteName_shows _).append_start (.flat (by decide) rfl) (by decide)
  · exact (quoteName_shows _).append_start (.flat (by decide) rfl) (by decide)

theorem aggregateArguments_balanced (hlead : IsFlat lead) (distinct : Bool)
    (orderBy : List OrderItem) :
    ∀ t ∈ aggregateArguments lead distinct orderBy, Balanced t := by
  intro t ht
  rcases List.mem_append.1 ht with ht | ht
  · obtain ⟨item, -, rfl⟩ := List.mem_map.1 ht
    refine optionCall_balanced hlead (by decide) ?_
    rw [List.forall_mem_cons, List.forall_mem_singleton]
    exact ⟨(quoteName_shows _).balanced, boolText_balanced _⟩
  · split at ht
    · rw [List.mem_singleton.1 ht]
      exact optionCall_balanced hlead (by decide) (by simp)
    · simp at ht

theorem windowCallText_shows (hname : Shows name []) (h : ∀ t ∈ texts, Balanced t)
    (table : String) : Shows (windowCallText name texts table) [] := by
  have htext : windowCallText name texts table =
      "" ++ ("(" ++ (" SELECT " ++ callText name texts ++ " FROM " ++ quoteName table ++ " ") ++
        ")") :=
    String.toList_inj.1 (by simp [windowCallText])
  rw [htext]
  refine Shows.append_parens (.flat (by decide) rfl) ?_
  have hselect := (Balanced.flat (by decide : IsFlat " SELECT ")).append
    (callText_shows hname h).balanced
  exact ((hselect.append (.flat (by decide))).append (quoteName_shows table).balanced).append
    (.flat (by decide))

theorem selectText_shows (htexts : ∀ t ∈ texts, Shows t []) (hinput : Shows input ks) :
    Shows (selectText texts input) (.select :: ks) := by
  have hselect : Shows ("SELECT " ++ commas texts) [.select] :=
    Shows.append_end (.flat (by decide) rfl) (.commas htexts) (by decide)
  unfold selectText
  split
  · rename_i hempty
    subst hempty
    rw [← hinput.clauses]
    exact hselect
  · exact hselect.between (.flat (by decide) rfl) hinput (by decide) (by decide)

theorem filterText_shows {keyword condition : String} {k : Clause} (hinput : Shows input ks)
    (hkeyword : Shows keyword [k]) (hcondition : Shows condition []) :
    Shows (input ++ " " ++ keyword ++ " " ++ condition) (ks ++ [k]) := by
  have hblank : Shows " " [] := .flat (by decide) rfl
  have hfront := hinput.between hblank hkeyword (by decide) (by decide)
  have htext := hfront.between hblank hcondition (by decide) (by decide)
  rwa [List.append_nil, List.append_nil, List.append_nil] at htext

theorem groupSource_shows (hinput : Shows input ks) :
    Shows (groupSource input) (if startsWith "SELECT" input then [.source] else ks) := by
  unfold groupSource
  split
  · have htext : "FROM ( " ++ input ++ " )" = "FROM " ++ ("(" ++ (" " ++ input ++ " ") ++ ")") :=
      String.toList_inj.1 (by simp)
    rw [htext]
    refine Shows.append_parens (.flat (by decide) rfl) ?_
    exact ((Balanced.flat (by decide)).append hinput.balanced).append (.flat (by decide))
  · exact hinput

theorem groupText_shows (hinput : Shows input ks) (htexts : ∀ t ∈ texts, Shows t []) :
    Shows (groupText input texts) ((if startsWith "SELECT" input then [.source] else ks) ++
      if texts.isEmpty then [] else [.groupBy]) := by
  unfold groupText
  split
  · rw [List.append_nil]
    exact groupSource_shows hinput
  · rw [← List.append_nil (_ ++ [Clause.groupBy])]
    exact (groupSource_shows hinput).between (.flat (by decide) rfl) (.commas htexts) (by decide)
      (by decide)

theorem orderByText_shows (hinput : Shows input ks) (items : List OrderItem) :
    Shows (orderByText input items) (ks ++ if items.isEmpty then [] else [.orderBy]) := by
  have hitems : ∀ t ∈ items.map orderText, Shows t [] := by
    intro t ht
    obtain ⟨item, -, rfl⟩ := List.mem_map.1 ht
    exact orderText_shows item
  unfold orderByText
  split
  · rwa [List.append_nil]
  · rw [← List.append_nil (_ ++ [Clause.orderBy])]
    exact hinput.between (.flat (by decide) rfl) (.commas hitems) (by decide) (by decide)

theorem limitText_shows {count : String} (hinput : Shows input ks) (hcount : Shows count []) :
    Shows (input ++ " LIMIT " ++ count) (ks ++ [.limit]) := by
  rw [← List.append_nil (_ ++ [Clause.limit])]
  exact hinput.between (.flat (by decide) rfl) hcount (by decide) (by decide)

theorem offsetText_shows {offset : String} (hinput : Shows input ks) (hoffset : Shows offset []) :
    Shows (input ++ " OFFSET " ++ offset) ks := by
  have htext := hinput.between (.flat (by decide : IsFlat " OFFSET ") rfl) hoffset (by decide)
    (by decide)
  rwa [List.append_nil, show clausesOf " OFFSET ".toList = [] from rfl, List.append_nil] at htext

theorem analyticText_shows (rowId : String) (hinput : Balanced input)
    (htexts : ∀ t ∈ texts, Shows t []) :
    Shows (analyticText rowId input texts)
      (.source :: if texts.isEmpty then [] else [.orderBy]) := by
  have hempty : Balanced ("(" ++ "" ++ ")") := (Balanced.parens (.flat (by decide))).1
  have hnumbered : Shows ("FROM ( SELECT *, ROW_NUMBER() OVER() AS " ++ quoteName rowId ++ " " ++
      input ++ " )") [.source] := by
    have htext : "FROM ( SELECT *, ROW_NUMBER() OVER() AS " ++ quoteName rowId ++ " " ++ input ++
        " )" = "FROM " ++ ("(" ++ (" SELECT *, ROW_NUMBER" ++ ("(" ++ "" ++ ")") ++ " OVER" ++
          ("(" ++ "" ++ ")") ++ " AS " ++ quoteName rowId ++ " " ++ input ++ " ") ++ ")") :=
      String.toList_inj.1 (by simp)
    rw [htext]
    refine Shows.append_parens (.flat (by decide) rfl) ?_
    have hlead := (((Balanced.flat (by decide : IsFlat " SELECT *, ROW_NUMBER")).append
      hempty).append (.flat (by decide : IsFlat " OVER"))).append hempty
    have hname := (hlead.append (.flat (by decide : IsFlat " AS "))).append
      (quoteName_shows rowId).balanced
    exact ((hname.append (.flat (by decide : IsFlat " "))).append hinput).append
      (.flat (by decide))
  unfold analyticText
  split
  · exact hnumbered
  · exact hnumbered.between (.flat (by decide) rfl) (.commas htexts) (by decide) (by decide)

theorem arrayText_shows (hlead : IsFlat lead) (element : String) (h : Balanced input) :
    Shows (arrayText lead element input) [.source] := by
  have htext : arrayText lead element input = "FROM " ++ ("(" ++
      (" SELECT json_each.value AS " ++ quoteName element ++ " FROM json_each" ++
        ("(" ++ optionCall lead "decode_array" [input] ++ ")") ++ " ") ++ ")") := by
    unfold arrayText
    generalize optionCall lead "decode_array" [input] = option
    exact String.toList_inj.1 (by simp)
  have hoption : Balanced (optionCall lead "decode_array" [input]) :=
    optionCall_balanced hlead (by decide) (by simpa using h)
  rw [htext]
  refine Shows.append_parens (.flat (by decide) rfl) ?_
  have hfront := ((Balanced.flat (by decide : IsFlat " SELECT json_each.value AS ")).append
    (quoteName_shows element).balanced).append (.flat (by decide : IsFlat " FROM json_each"))
  exact (hfront.append hoption.parens.1).append (.flat (by decide))

theorem isPrefixOf_append_cons {front : List Char} {c : Char} (hc : c ∉ front)
    (cs ds : List Char) : front.isPrefixOf (cs ++ c :: ds) = front.isPrefixOf cs := by
  induction front generalizing cs with
  | nil => simp
  | cons d front ih =>
    rw [List.mem_cons, not_or] at hc
    cases cs with
    | nil => simp [List.isPrefixOf, Ne.symm hc.1]
    | cons e cs => simp [List.isPrefixOf, ih hc.2 cs]

theorem startsWith_append (s : String) {t : String} (h : t.toList.head? = some ' ') :
    startsWith "SELECT" (s ++ t) = startsWith "SELECT" s := by
  unfold startsWith
  rw [String.toList_append]
  cases ht : t.toList with
  | nil => simp [ht] at h
  | cons c cs =>
    obtain rfl : c = ' ' := by simpa [ht] using h
    exact isPrefixOf_append_cons (by decide) _ _

theorem startsWith_groupText (input : String) (texts : List String) :
    startsWith "SELECT" (groupText input texts) = false := by
  have hsource : startsWith "SELECT" (groupSource input) = false := by
    unfold groupSource
    split
    · simp [startsWith, List.isPrefixOf]
    · rename_i h
      simpa using h
  unfold groupText
  split
  · exact hsource
  · rw [String.append_assoc, startsWith_append _ (by simp), hsource]

theorem startsWith_orderByText (input : String) (items : List OrderItem) :
    startsWith "SELECT" (orderByText input items) = startsWith "SELECT" input := by
  unfold orderByText
  split
  · rfl
  · rw [String.append_assoc, startsWith_append _ (by simp)]

theorem startsWith_selectText (texts : List String) (input : String) :
    startsWith "SELECT" (selectText texts input) = true := by
  unfold selectText
  split <;> simp [startsWith, List.isPrefixOf]

theorem startsWith_analyticText (rowId input : String) (texts : List String) :
    startsWith "SELECT" (analyticText rowId input texts) = false := by
  unfold analyticText
  split <;> simp [startsWith, List.isPrefixOf]

theorem startsWith_arrayText (lead element array : String) :
    startsWith "SELECT" (arrayText lead element array) = false := by
  unfold arrayText
  generalize optionCall lead "decode_array" [array] = option
  simp [startsWith, List.isPrefixOf]

theorem selectItems_shows {own below : Keyed String}
    (hown : ∀ e ∈ own.entries, Shows e.2 []) (hbelow : ∀ e ∈ below.entries, Shows e.2 [])
    (columns : List Column) : ∀ t ∈ selectItems own below columns, Shows t [] := by
  have herase {m : Keyed String} (name : String) (h : ∀ e ∈ m.entries, Shows e.2 []) :
      ∀ e ∈ (m.erase name).entries, Shows e.2 [] := fun e he => h e (List.mem_filter.1 he).1
  induction columns generalizing own below with
  | nil => simp [selectItems]
  | cons c columns ih =>
    rw [selectItems_find?]
    split
    · rename_i sql hsql
      rw [List.forall_mem_cons]
      exact ⟨hown _ (Keyed.mem_of_find?_eq_some hsql), ih (herase _ hown) hbelow⟩
    · split
      · rename_i sql hsql
        rw [List.forall_mem_cons]
        exact ⟨hbelow _ (Keyed.mem_of_find?_eq_some hsql), ih hown (herase _ hbelow)⟩
      · rw [List.forall_mem_cons]
        exact ⟨quoteName_shows _, ih hown hbelow⟩

end Render

end ResolvedSql
