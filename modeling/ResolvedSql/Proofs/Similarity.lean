import ResolvedSql.Proofs.Meaning
import ResolvedSql.Proofs.Realization
import ResolvedSql.Proofs.Skeleton
set_option autoImplicit false

namespace ResolvedSql

open Text Render FunctionBody

/-- The texts of a scope end outside quotes. -/
structure AnalyticScope.Closed (scope : AnalyticScope) : Prop where
  columns : ∀ c ∈ scope.columns, AlikeText c c
  partition : ∀ c ∈ scope.partition, AlikeText c c
  order : ∀ o ∈ scope.order, AlikeText o.1 o.1

namespace AnalyticScope.Closed

theorem empty : Closed {} := ⟨by simp, by simp, by simp⟩

theorem bare {scope : AnalyticScope} (h : scope.Closed) : scope.bare.Closed :=
  ⟨by simp [AnalyticScope.bare], h.partition, h.order⟩

theorem openGroup {scope : AnalyticScope} (h : scope.Closed) (group : CallGroup) :
    (openGroup group scope).Closed := by
  refine ⟨fun c hc => ?_, fun c hc => ?_, fun o ho => ?_⟩
  · rcases List.mem_append.1 hc with hc | hc
    · exact h.columns c hc
    · obtain ⟨column, -, rfl⟩ := List.mem_map.1 hc
      exact AlikeText.name _
  · obtain ⟨column, -, rfl⟩ := List.mem_map.1 hc
    exact AlikeText.name _
  · obtain ⟨item, -, rfl⟩ := List.mem_map.1 ho
    exact AlikeText.name _

end AnalyticScope.Closed

namespace AlikeText

variable {lead name a b : String} {as bs : List String}

theorem callText (hn : HasNoQuote name) (h : List.Forall₂ AlikeText as bs) :
    AlikeText (callText name as) (callText name bs) :=
  ((fixed hn).append (fixed (by decide))).append (commas h) |>.append (fixed (by decide))

theorem optionCall (hl : HasNoQuote lead) (hn : HasNoQuote name)
    (h : List.Forall₂ AlikeText as bs) :
    AlikeText (optionCall lead name as) (optionCall lead name bs) :=
  ((((fixed hl).append (fixed (by decide))).append (fixed hn)).append (fixed (by decide))).append
    (separated h (by decide)) |>.append (fixed (by decide))

theorem parameterText (hn : HasNoQuote name) (position : Option UInt32) :
    AlikeText (parameterText name position) (parameterText name position) := by
  have hname : HasNoQuote ("@" ++ name) := HasNoQuote.append (by decide) hn
  unfold Render.parameterText
  split
  · split
    · exact (fixed (by decide)).append (fixed (.of_isPlainText (toString_isPlainText _)))
    · exact fixed hname
  · exact fixed hname

theorem boolText (b : Bool) : AlikeText (boolText b) (boolText b) := by
  cases b <;> exact fixed (by decide)

theorem orderText (item : OrderItem) : AlikeText (orderText item) (orderText item) := by
  refine (AlikeText.name _).append ?_
  split <;> exact fixed (by decide)

theorem aggregateArguments (hl : HasNoQuote lead) (distinct : Bool) (orderBy : List OrderItem) :
    List.Forall₂ AlikeText (aggregateArguments lead distinct orderBy)
      (aggregateArguments lead distinct orderBy) := by
  refine List.forall₂_same.2 fun text htext => ?_
  rcases List.mem_append.1 htext with htext | htext
  · obtain ⟨item, -, rfl⟩ := List.mem_map.1 htext
    exact optionCall hl (by decide) (.cons (AlikeText.name _) (.cons (boolText _) .nil))
  · split at htext
    · rw [List.mem_singleton.1 htext]
      exact optionCall hl (by decide) .nil
    · simp at htext

theorem windowArguments (hl : HasNoQuote lead) (distinct : Bool) {scope : AnalyticScope}
    (hs : scope.Closed) :
    List.Forall₂ AlikeText (windowArguments lead distinct scope)
      (windowArguments lead distinct scope) := by
  refine List.forall₂_same.2 fun text htext => ?_
  simp only [Render.windowArguments, List.mem_append, List.mem_map] at htext
  rcases htext with (htext | ⟨column, hc, rfl⟩) | ⟨item, hi, rfl⟩
  · split at htext
    · rw [List.mem_singleton.1 htext]
      exact optionCall hl (by decide) .nil
    · simp at htext
  · exact optionCall hl (by decide) (.cons (hs.partition column hc) .nil)
  · exact optionCall hl (by decide) (.cons (hs.order item hi) (.cons (boolText _) .nil))

theorem selectText (ha : List.Forall₂ AlikeText as bs) (h : AlikeText a b) :
    AlikeText (selectText as a) (selectText bs b) := by
  have hselect : AlikeText ("SELECT " ++ Text.commas as) ("SELECT " ++ Text.commas bs) :=
    (fixed (by decide)).append (commas ha)
  unfold Render.selectText
  by_cases he : a = ""
  · rw [if_pos he, if_pos (h.eq_empty_iff.1 he)]
    exact hselect
  · rw [if_neg he, if_neg fun hb => he (h.eq_empty_iff.2 hb)]
    exact (hselect.append (fixed (by decide))).append h

theorem groupText (h : AlikeText a b) (hs : List.Forall₂ AlikeText as bs) :
    AlikeText (groupText a as) (groupText b bs) := by
  have hsource : AlikeText (groupSource a) (groupSource b) := by
    unfold groupSource
    rw [h.startsWith_eq (by decide)]
    split
    · exact ((fixed (by decide)).append h).append (fixed (by decide))
    · exact h
  unfold Render.groupText
  cases hs with
  | nil => exact hsource
  | cons hx hxs => exact (hsource.append (fixed (by decide))).append (commas (.cons hx hxs))

theorem orderByText (h : AlikeText a b) (items : List OrderItem) :
    AlikeText (orderByText a items) (orderByText b items) := by
  unfold Render.orderByText
  split
  · exact h
  · refine (h.append (fixed (by decide))).append (commas (List.forall₂_same.2 fun text ht => ?_))
    obtain ⟨item, -, rfl⟩ := List.mem_map.1 ht
    exact orderText item

theorem analyticText (rowId : String) (h : AlikeText a b) (hs : List.Forall₂ AlikeText as bs) :
    AlikeText (analyticText rowId a as) (analyticText rowId b bs) := by
  have hnumbered :=
    ((((fixed (a := "FROM ( SELECT *, ROW_NUMBER() OVER() AS ") (by decide)).append
      (AlikeText.name rowId)).append (fixed (a := " ") (by decide))).append h).append
      (fixed (a := " )") (by decide))
  unfold Render.analyticText
  cases hs with
  | nil => exact hnumbered
  | cons hx hxs => exact (hnumbered.append (fixed (by decide))).append (commas (.cons hx hxs))

theorem arrayText (hl : HasNoQuote lead) (element : String) (h : AlikeText a b) :
    AlikeText (arrayText lead element a) (arrayText lead element b) :=
  ((((fixed (by decide)).append (AlikeText.name element)).append (fixed (by decide))).append
    (optionCall hl (by decide) (.cons h .nil))).append (fixed (by decide))

theorem whereText {statement statement' : String} (hs : AlikeText statement statement')
    (h : AlikeText a b) : AlikeText (whereText statement a) (whereText statement' b) := by
  unfold Render.whereText
  by_cases he : a = ""
  · rw [if_pos he, if_pos (h.eq_empty_iff.1 he)]
    exact hs
  · rw [if_neg he, if_neg fun hb => he (h.eq_empty_iff.2 hb)]
    exact (hs.append (fixed (by decide))).append h

theorem rowText (h : List.Forall₂ AlikeText as bs) : AlikeText (rowText as) (rowText bs) :=
  ((fixed (by decide)).append (commas h)).append (fixed (by decide))

theorem insertText (table : String) (columns : List Column) (h : AlikeText a b) :
    AlikeText (insertText table columns a) (insertText table columns b) := by
  refine (((((fixed (by decide)).append (AlikeText.name table)).append (fixed (by decide))).append
    (commas (List.forall₂_same.2 fun text ht => ?_))).append (fixed (by decide))).append h
  obtain ⟨column, -, rfl⟩ := List.mem_map.1 ht
  exact AlikeText.name _

theorem subqueryText (kind : SubqueryKind) (h : AlikeText a b) :
    AlikeText (subqueryText kind a) (subqueryText kind b) := by
  unfold Render.subqueryText
  split
  · exact ((fixed (by decide)).append h).append (fixed (by decide))
  · exact h

theorem windowCallText (hn : HasNoQuote name) (h : List.Forall₂ AlikeText as bs) (table : String) :
    AlikeText (windowCallText name as table) (windowCallText name bs table) :=
  ((((fixed (by decide)).append (callText hn h)).append (fixed (by decide))).append
    (AlikeText.name table)).append (fixed (by decide))

end AlikeText

def AlikeEntry (e e' : String × String) : Prop := e.1 = e'.1 ∧ AlikeText e.2 e'.2

namespace Keyed

def Alike (m m' : Keyed String) : Prop := List.Forall₂ AlikeEntry m.entries m'.entries

variable {m m' : Keyed String}

theorem Alike.empty : (Keyed.empty : Keyed String).Alike Keyed.empty := .nil

theorem Alike.without {es es' : List (String × String)} (h : List.Forall₂ AlikeEntry es es')
    (name : String) : List.Forall₂ AlikeEntry (without name es) (without name es') := by
  induction h with
  | nil => exact .nil
  | @cons e e' _ _ he _ ih =>
    obtain ⟨k, a⟩ := e
    obtain ⟨k', b⟩ := e'
    obtain rfl : k = k' := he.1
    rw [Keyed.without, Keyed.without, List.filter_cons, List.filter_cons]
    split
    · exact .cons he ih
    · exact ih

theorem Alike.erase (h : m.Alike m') (name : String) : (m.erase name).Alike (m'.erase name) :=
  Alike.without h name

theorem Alike.insertAll (h : m.Alike m') {es es' : List (String × String)}
    (hes : List.Forall₂ AlikeEntry es es') : (m.insertAll es).Alike (m'.insertAll es') := by
  induction hes generalizing m m' with
  | nil => exact h
  | @cons e e' _ _ he _ ih =>
    refine ih ?_
    obtain ⟨k, a⟩ := e
    obtain ⟨k', b⟩ := e'
    obtain rfl : k = k' := he.1
    exact .cons he (Alike.without h k)

theorem Alike.lookup {es es' : List (String × String)} (h : List.Forall₂ AlikeEntry es es')
    (name : String) : (es.lookup name = none ∧ es'.lookup name = none) ∨
      ∃ a b, es.lookup name = some a ∧ es'.lookup name = some b ∧ AlikeText a b := by
  induction h with
  | nil => exact .inl ⟨rfl, rfl⟩
  | @cons e e' _ _ he _ ih =>
    obtain ⟨k, a⟩ := e
    obtain ⟨k', b⟩ := e'
    obtain rfl : k = k' := he.1
    rw [List.lookup_cons, List.lookup_cons]
    split
    · exact .inr ⟨a, b, rfl, rfl, he.2⟩
    · exact ih

theorem Alike.find? (h : m.Alike m') (name : String) :
    (m.find? name = none ∧ m'.find? name = none) ∨
      ∃ a b, m.find? name = some a ∧ m'.find? name = some b ∧ AlikeText a b :=
  Alike.lookup h name

end Keyed

theorem Render.selectItems_alike {own own' below below' : Keyed String} (ho : own.Alike own')
    (hb : below.Alike below') (columns : List Column) :
    List.Forall₂ AlikeText (selectItems own below columns) (selectItems own' below' columns) := by
  induction columns generalizing own own' below below' with
  | nil => exact .nil
  | cons c columns ih =>
    rw [selectItems_find?, selectItems_find?]
    rcases ho.find? c.name with ⟨h, h'⟩ | ⟨a, b, h, h', hab⟩
    · rw [h, h']
      rcases hb.find? c.name with ⟨h, h'⟩ | ⟨a, b, h, h', hab⟩
      · rw [h, h']
        exact .cons (AlikeText.name _) (ih ho hb)
      · rw [h, h']
        exact .cons hab (ih ho (hb.erase _))
    · rw [h, h']
      exact .cons hab (ih (ho.erase _) hb)

inductive Agree {α β : Type} (R : α → β → Prop) : Except Error α → Except Error β → Prop
  | ok {a : α} {b : β} (h : R a b) : Agree R (.ok a) (.ok b)
  | error (e : Error) : Agree R (.error e) (.error e)

namespace Agree

variable {α β : Type} {R : α → β → Prop}

theorem same (v : Except Error α) : Agree Eq v v := by
  cases v with
  | error e => exact .error e
  | ok a => exact .ok rfl

theorem symm {v : Except Error α} {w : Except Error β} (h : Agree R v w) :
    Agree (fun b a => R a b) w v := by
  cases h with
  | ok hab => exact .ok hab
  | error e => exact .error e

theorem of_ok {a : α} {w : Except Error β} (h : Agree R (.ok a) w) : ∃ b, w = .ok b ∧ R a b := by
  cases h with
  | ok hab => exact ⟨_, rfl, hab⟩

theorem of_error {e : Error} {w : Except Error β} (h : Agree R (.error e) w) : w = .error e := by
  cases h with
  | error => rfl

end Agree

theorem FunctionBody.inline_agree (body : FunctionBody) (function : String) {as bs : List String}
    (h : List.Forall₂ AlikeText as bs) :
    Agree AlikeText (body.inline function as) (body.inline function bs) := by
  cases hscan : body.scan function with
  | error e =>
    simp only [FunctionBody.inline, hscan]
    exact .error e
  | ok ss =>
    by_cases hp : placeholders ss = as.length
    · rw [inline_eq_ok.2 ⟨ss, hscan, hp, rfl⟩, inline_eq_ok.2 ⟨ss, hscan, h.length_eq ▸ hp, rfl⟩]
      refine .ok ((AlikeText.append (.fixed (by decide)) ?_).append (.fixed (by decide)))
      unfold AlikeText
      rw [String.toList_ofList, String.toList_ofList]
      exact Alike.splice (scan_wellFormed hscan) h
    · rw [inline_eq_arityMismatch hscan hp, inline_eq_arityMismatch hscan (h.length_eq ▸ hp),
        h.length_eq]
      exact .error _

theorem Catalog.mangle_hasNoQuote (catalog : Catalog) {lead bare : String} (hl : HasNoQuote lead)
    (hb : HasNoQuote bare) (type : SqlType) : HasNoQuote (catalog.mangle lead bare type) := by
  have hstem : HasNoQuote (catalog.stem lead) := by
    cases catalog with
    | scalar | aggregate => exact hl
    | window => exact hl.append (by decide)
  exact ((hstem.append (by decide)).append hb).append (by decide)
    |>.append (.of_isPlainText type.family_isPlainText)

structure Effects.Alike (e e' : Effects) : Prop where
  resolved : e.resolved = e'.resolved
  computed : List.Forall₂ AlikeEntry e.computed e'.computed
  met : List.Forall₂ AlikeText e.met e'.met

namespace Meaning

variable {α β γ δ : Type} {R : α → β → Prop} {m : Meaning α} {m' : Meaning β}

/-- The functions that were resolved have no quotes in their names. -/
def Clean (m : Meaning α) : Prop :=
  ∀ r ∈ m.effects.resolved, r.1.kind = .function → HasNoQuote r.2

/-- If either side resolves only functions without quotes in their names, both give related
results or the same error, with alike effects. -/
def Similar (R : α → β → Prop) (m : Meaning α) (m' : Meaning β) : Prop :=
  m.Clean ∨ m'.Clean → Agree R m.result m'.result ∧ m.effects.Alike m'.effects

theorem Clean.of_bind {g : α → Meaning γ} (h : (m >>= g).Clean) : m.Clean := by
  intro r hr
  refine h r ?_
  simp only [Bind.bind]
  cases m.result with
  | error e => exact hr
  | ok a => exact List.mem_append_left _ hr

theorem Clean.of_bind_ok {g : α → Meaning γ} {a : α} (h : (m >>= g).Clean)
    (ha : m.result = .ok a) : (g a).Clean := by
  intro r hr
  refine h r ?_
  simp only [Bind.bind, ha]
  exact List.mem_append_right _ hr

namespace Similar

theorem pure {a : α} {b : β} (h : R a b) : Similar R (Pure.pure a) (Pure.pure b) :=
  fun _ => ⟨.ok h, ⟨rfl, .nil, .nil⟩⟩

theorem bind {S : γ → δ → Prop} {g : α → Meaning γ} {g' : β → Meaning δ} (hm : Similar R m m')
    (hg : ∀ a b, R a b → Similar S (g a) (g' b)) : Similar S (m >>= g) (m' >>= g') := by
  intro hclean
  -- whichever side is clean, its first part is, and after a success its rest is too
  obtain ⟨hagree, heffects⟩ := hm (hclean.imp Clean.of_bind Clean.of_bind)
  obtain ⟨result, effects⟩ := m
  obtain ⟨result', effects'⟩ := m'
  cases hagree with
  | error e => exact ⟨.error e, heffects⟩
  | ok hab =>
    obtain ⟨hagree, hmore⟩ := hg _ _ hab
      (hclean.imp (fun h => h.of_bind_ok rfl) fun h => h.of_bind_ok rfl)
    refine ⟨hagree, ⟨?_, ?_, ?_⟩⟩
    · show effects.resolved ++ _ = effects'.resolved ++ _
      rw [heffects.resolved, hmore.resolved]
    · exact List.rel_append heffects.computed hmore.computed
    · exact List.rel_append heffects.met hmore.met

theorem demand {v : Except Error α} {v' : Except Error β} (h : Agree R v v') :
    Similar R (Meaning.demand v) (Meaning.demand v') :=
  fun _ => ⟨h, ⟨rfl, .nil, .nil⟩⟩

theorem fail (e : Error) : Similar R (Meaning.fail e) (Meaning.fail e) := demand (.error e)

theorem meet {as bs : List String} (h : List.Forall₂ AlikeText as bs) :
    Similar Eq (Meaning.meet as) (Meaning.meet bs) :=
  fun _ => ⟨.ok rfl, ⟨rfl, .nil, h⟩⟩

theorem resolve (ρ : Naming) (site : Site) :
    Similar (fun a b => a = b ∧ (site.kind = .function → HasNoQuote a))
      (Meaning.resolve ρ site) (Meaning.resolve ρ site) := by
  intro hclean
  unfold Meaning.resolve at *
  cases hname : ρ.reference site with
  | error e => exact ⟨.error e, ⟨rfl, .nil, .nil⟩⟩
  | ok name =>
    rw [hname] at hclean
    refine ⟨.ok ⟨rfl, fun hkind => ?_⟩, ⟨rfl, .nil, .nil⟩⟩
    exact hclean.elim (fun h => h _ (List.mem_singleton_self _) hkind)
      fun h => h _ (List.mem_singleton_self _) hkind

theorem compute (column : Column) {m m' : Meaning String} (h : Similar AlikeText m m') :
    Similar AlikeText (Meaning.compute column m) (Meaning.compute column m') := by
  refine bind h fun a b hab _ => ⟨.ok hab, ⟨rfl, .cons ⟨rfl, ?_⟩ .nil, .nil⟩⟩
  exact (hab.append (.fixed (by decide))).append (.name _)

theorem ownColumns (h : Similar R m m') :
    Similar (fun x y => R x.1 y.1 ∧ x.2.Alike y.2) m.ownColumns m'.ownColumns := by
  intro hclean
  obtain ⟨hagree, heffects⟩ := h hclean
  obtain ⟨result, effects⟩ := m
  obtain ⟨result', effects'⟩ := m'
  refine ⟨?_, ⟨heffects.resolved, .nil, heffects.met⟩⟩
  cases hagree with
  | error e => exact .error e
  | ok hab => exact .ok ⟨hab, Keyed.Alike.empty.insertAll heffects.computed⟩

theorem ownScope (h : Similar R m m') :
    Similar (fun x y => R x.1 y.1 ∧ List.Forall₂ AlikeText x.2 y.2) m.ownScope m'.ownScope := by
  intro hclean
  obtain ⟨hagree, heffects⟩ := h hclean
  obtain ⟨result, effects⟩ := m
  obtain ⟨result', effects'⟩ := m'
  refine ⟨?_, ⟨heffects.resolved, heffects.computed, .nil⟩⟩
  cases hagree with
  | error e => exact .error e
  | ok hab => exact .ok ⟨hab, heffects.met⟩

theorem list {ι : Type} {x : ι → Position → Meaning α} {x' : ι → Position → Meaning β}
    {is : List ι} (h : ∀ i ∈ is, ∀ q, Similar R (x i q) (x' i q)) (p : Position) (j : Nat) :
    Similar (List.Forall₂ R) (Meaning.list p j (is.map x)) (Meaning.list p j (is.map x')) := by
  induction is generalizing j with
  | nil => exact pure .nil
  | cons i is ih =>
    refine bind (h i (List.mem_cons_self ..) _) fun a b hab => ?_
    refine bind (ih (fun i hi => h i (List.mem_cons_of_mem _ hi)) (j + 1)) fun as bs hs => ?_
    exact pure (.cons hab hs)

theorem groups {calls : CallGroup → AnalyticScope → Position → Meaning (List String)}
    {f : CallGroup → CallGroup} (hf : ∀ g, openGroup (f g) = openGroup g) {gs : List CallGroup}
    (h : ∀ g ∈ gs, ∀ scope : AnalyticScope, scope.Closed → ∀ q,
      Similar (List.Forall₂ AlikeText) (calls g scope q) (calls (f g) scope q))
    (p : Position) (j : Nat) {scope : AnalyticScope} (hs : scope.Closed) :
    Similar Eq (Meaning.groups p j scope (gs.map fun g => (g, calls g)))
      (Meaning.groups p j scope ((gs.map f).map fun g => (g, calls g))) := by
  induction gs generalizing j scope with
  | nil => exact pure rfl
  | cons g gs ih =>
    have hopened := hs.openGroup g
    simp only [List.map_cons, Meaning.groups, hf]
    refine bind (meet (List.forall₂_same.2 hopened.columns)) fun _ _ _ => ?_
    refine bind (h g (List.mem_cons_self ..) _ hopened.bare _) fun _ _ _ => ?_
    exact ih (fun g hg => h g (List.mem_cons_of_mem _ hg)) (j + 1) hopened.bare

section
variable {settings : Settings} (hl : HasNoQuote settings.config.functionPrefix)
include hl

theorem callee (ρ : Naming) (p : Position) {function : String} {catalog : Catalog}
    (hb : ∀ bare ∈ catalog.builtin? function, HasNoQuote bare) (type : SqlType)
    {f : Callee → Meaning α} {g : Callee → Meaning β}
    (hinlined : ∀ name body, Similar R (f (.inlined name body)) (g (.inlined name body)))
    (hnamed : ∀ name, HasNoQuote name → Similar R (f (.named name)) (g (.named name))) :
    Similar R (calleeMeaning settings ρ p function catalog type >>= f)
      (calleeMeaning settings ρ p function catalog type >>= g) := by
  unfold calleeMeaning
  cases hbuiltin : catalog.builtin? function with
  | some bare =>
    simp only [Meaning.pure_bind]
    exact hnamed _ (catalog.mangle_hasNoQuote hl (hb bare hbuiltin) type)
  | none =>
    simp only [Meaning.bind_assoc, Meaning.pure_bind]
    refine bind (resolve ρ _) fun name name' hname => ?_
    obtain ⟨rfl, hquote⟩ := hname
    unfold Settings.userCallee
    split
    · exact hinlined _ _
    · exact hnamed _ (hquote rfl)

theorem boundary {edge : String} (he : HasNoQuote edge) (code : Int32)
    {offset offset' : Meaning String} (h : Similar AlikeText offset offset') :
    Similar (List.Forall₂ AlikeText) (Boundary.meaning settings edge code offset)
      (Boundary.meaning settings edge code offset') := by
  have hname : HasNoQuote ("window_boundary_" ++ edge) := HasNoQuote.append (by decide) he
  refine bind (demand (.same _)) fun kind kind' hkind => ?_
  subst hkind
  have hcode : AlikeText (codeText kind.code) (codeText kind.code) := by
    cases kind <;> exact .fixed (by decide)
  split
  · refine bind h fun a b hab => ?_
    by_cases ha : a = ""
    · rw [if_pos ha, if_pos (hab.eq_empty_iff.1 ha)]
      exact fail _
    · rw [if_neg ha, if_neg fun hb => ha (hab.eq_empty_iff.2 hb)]
      exact pure (.cons (.optionCall hl hname (.cons hcode (.cons hab .nil))) .nil)
  · exact pure (.cons (.optionCall hl hname (.cons hcode (.cons (.fixed (by decide)) .nil))) .nil)

theorem frame (unit : Int32) {first first' last last' : Meaning (List String)}
    (hf : Similar (List.Forall₂ AlikeText) first first')
    (h : Similar (List.Forall₂ AlikeText) last last') :
    Similar (List.Forall₂ AlikeText) (Frame.meaning settings unit first last)
      (Frame.meaning settings unit first' last') := by
  refine bind (demand (.same _)) fun unit unit' hunit => ?_
  subst hunit
  refine bind hf fun as bs hs => bind h fun cs ds ht => pure ?_
  refine .cons (.optionCall hl (by decide) (.cons ?_ .nil)) (List.rel_append hs ht)
  cases unit <;> exact .fixed (by decide)

end

theorem row (width index count : Nat) {values values' : Meaning (List String)}
    (h : Similar (List.Forall₂ AlikeText) values values') :
    Similar AlikeText (rowMeaning width index count values)
      (rowMeaning width index count values') := by
  unfold rowMeaning
  split
  · exact fail _
  · exact bind h fun as bs hs => pure (.rowText hs)

end Similar
end Meaning
end ResolvedSql
