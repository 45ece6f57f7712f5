import ResolvedSql.Proofs.Rendering
/-!
Which name each reference gets. A successful rendering takes one path for each reference of the
tree and no more, in the order of `Node.sites`, whatever the configuration, the registry and the
encoder are. This needs that the options of calls have no references of their own, since those of
an inlined call are left out.
-/
set_option autoImplicit false

namespace ResolvedSql.Statement

def names (s : Statement) : List String :=
  s.namePaths.map fun path => (s.declaredPath.merge path).flatten

theorem nameAt_eq (s : Statement) {k : Nat} {name : String} :
    s.initialState.cursor.nameAt k = .ok name ↔ s.names[k]? = some name := by
  unfold names Cursor.nameAt initialState Cursor.start
  rw [List.getElem?_map]
  cases s.namePaths[k]? <;> simp

theorem naming_eq_ok {s : Statement} {settings : Settings} {site : Site} {name : String}
    (h : (s.naming settings).reference site = .ok name) :
    ∃ k : Nat, (s.visited settings)[k]? = some site ∧ s.names[k]? = some name := by
  unfold naming Naming.ofSites at h
  simp only at h
  split at h
  · rename_i hmem
    have hlt := List.idxOf_lt_length_of_mem hmem
    exact ⟨_, List.getElem?_eq_some_iff.2 ⟨hlt, List.getElem_idxOf hlt⟩, s.nameAt_eq.1 h⟩
  · simp at h

theorem visited_of_quiet {s : Statement} (settings : Settings) (h : s.root.Quiet) :
    s.visited settings = s.root.sites := by
  unfold visited Node.sites
  rw [h.route_eq _ fun _ => false]

theorem agrees_of_zip (s : Statement) {ρ : Naming} {sites : List Site}
    (hlen : sites.length ≤ s.namePaths.length)
    (h : ∀ site name, (site, name) ∈ sites.zip s.names → ρ.reference site = .ok name) :
    ρ.Agrees s.initialState.cursor 0 sites := by
  intro k site hk
  have hlt : k < s.names.length := by
    have := (List.getElem?_eq_some_iff.1 hk).1
    simp only [names, List.length_map]
    omega
  have hname : s.names[k]? = some s.names[k] := List.getElem?_eq_getElem hlt
  rw [Nat.zero_add, s.nameAt_eq.2 hname]
  exact h site _ (List.mem_of_getElem? (List.getElem?_zip_eq_some.2 ⟨hk, hname⟩))

theorem resolved_eq_zip {ρ : Naming} {resolved : List (Site × String)} {names : List String}
    (hlen : resolved.length ≤ names.length)
    (hnamed : ∀ r ∈ resolved, ρ.reference r.1 = .ok r.2)
    (hzip : ∀ site name, (site, name) ∈ (resolved.map Prod.fst).zip names →
      ρ.reference site = .ok name) : resolved = (resolved.map Prod.fst).zip names := by
  induction resolved generalizing names with
  | nil => rfl
  | cons r rest ih =>
    cases names with
    | nil => simp at hlen
    | cons name names =>
      simp only [List.map_cons, List.zip_cons_cons, List.mem_cons] at hzip hnamed ⊢
      have hr := hnamed r (.inl rfl)
      rw [hzip r.1 name (.inl rfl), Except.ok.injEq] at hr
      rw [← ih (by simpa using hlen) (fun r h => hnamed r (.inr h)) fun site name h =>
        hzip site name (.inr h), hr]

/-- If the statement has SQL, each reference has a path of its own, the cursor stops after the last
of them, and the SQL is what the tree means with each reference named by its path: the first
reference by the first path, and so on. -/
theorem toSql_names_references_in_order (s : Statement) (settings : Settings) (sql : String)
    (hq : s.root.Quiet) (h : (s.toSql settings).result = .ok sql) :
    ∃ final, s.root.render.run settings s.initialState = .ok sql final ∧
      final.cursor.consumed = s.root.sites.length ∧
      s.root.sites.length ≤ s.namePaths.length ∧ s.root.sites.Nodup ∧
      ∀ ρ : Naming, (ρ.argument = fun _ => "?") →
        (∀ site name, (site, name) ∈ s.root.sites.zip s.names → ρ.reference site = .ok name) →
        (s.root.meaning settings ρ none []).result = .ok sql ∧
        (s.root.meaning settings ρ none []).effects.resolved = s.root.sites.zip s.names := by
  have hvisited := visited_of_quiet settings hq
  have hagrees := s.naming_agrees settings
  have hresult := h
  rw [s.toSql_result settings rfl hagrees] at hresult
  obtain ⟨⟨log, hrun⟩, hres⟩ := s.realizes settings rfl hagrees
  have hsites := hres.complete sql hresult
  rw [hvisited] at hsites
  have hlen : s.root.sites.length ≤ s.namePaths.length := by
    have hbound := hres.bound
    rw [← hsites, List.length_map]
    simpa [initialState, Cursor.start] using hbound
  refine ⟨s.initialState.after (s.root.meaning settings (s.naming settings) none []).effects log,
    ?_, ?_, hlen, s.root.route_nodup _ _ _, fun ρ hρ hzip => ?_⟩
  · rw [hrun, Meaning.finish, hresult]
  · rw [Cursor.consumed, State.index_after hres.bound, ← hsites, List.length_map]
    exact Nat.zero_add _
  · have hagrees : ρ.Agrees s.initialState.cursor 0 (s.visited settings) := by
      rw [hvisited]
      exact s.agrees_of_zip hlen hzip
    have hresult := h
    rw [s.toSql_result settings hρ hagrees] at hresult
    refine ⟨hresult, ?_⟩
    obtain ⟨-, hres⟩ := s.realizes settings hρ hagrees
    have hsites := hres.complete sql hresult
    rw [hvisited] at hsites
    rw [← hsites] at hzip hlen ⊢
    rw [List.length_map] at hlen
    exact resolved_eq_zip (by simpa [names] using hlen) hres.named hzip

/-- A call with a column as its argument, selected from a table, and one path too many. -/
def selectCall : Statement where
  declaredPath := ["p"]
  namePaths := [["f"], ["d", "t"], ["u"]]
  root := .projectScan [⟨"y", "", .scalar .int64⟩]
    [⟨⟨"y", "", .scalar .int64⟩,
      .call "f" [.columnRef ⟨"x", "t", .scalar .int64⟩] (.scalar .int64)⟩]
    (.tableScan "t" [])

theorem selectCall_names_references_in_order :
    ∃ final, selectCall.root.render.run {} selectCall.initialState =
        .ok "SELECT p_f(`x`) AS `y` FROM `p_d_t`" final ∧
      final.cursor.consumed = 2 ∧
      (selectCall.root.meaning {} (selectCall.naming {}) none []).effects.resolved =
        [(⟨.function, [0, 0]⟩, "p_f"), (⟨.table, [1]⟩, "p_d_t")] := by
  have hsites : selectCall.root.sites = [⟨.function, [0, 0]⟩, ⟨.table, [1]⟩] := by decide +kernel
  have hnames : selectCall.names = ["p_f", "p_d_t", "p_u"] := by decide +kernel
  have hquiet : selectCall.root.Quiet := by decide +kernel
  have hnaming : selectCall.naming {} =
      .ofSites selectCall.initialState.cursor [⟨.function, [0, 0]⟩, ⟨.table, [1]⟩] := by
    unfold naming
    rw [visited_of_quiet _ hquiet, hsites]
  have hsql : (selectCall.toSql {}).result = .ok "SELECT p_f(`x`) AS `y` FROM `p_d_t`" := by rfl
  obtain ⟨final, hrun, hconsumed, -, -, hnamed⟩ :=
    toSql_names_references_in_order selectCall {} _ hquiet hsql
  rw [hsites, hnames] at hnamed
  refine ⟨final, hrun, by rw [hconsumed, hsites]; rfl, (hnamed _ rfl ?_).2⟩
  intro site name hmem
  simp only [List.zip_cons_cons, List.zip_nil_left, List.mem_cons, Prod.mk.injEq,
    List.not_mem_nil, or_false] at hmem
  rcases hmem with ⟨rfl, rfl⟩ | ⟨rfl, rfl⟩
  · rw [hnaming]
    rfl
  · rw [hnaming]
    rfl

end ResolvedSql.Statement
