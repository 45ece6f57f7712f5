import Mathlib.Logic.Relation
import ResolvedSql.NamePath
set_option autoImplicit false

namespace ResolvedSql

namespace NamePath

def segmentPieces (segment : String) : List String :=
  (segment.toList.splitOn '_').map String.ofList

def pieces (path : NamePath) : List String := path.flatMap segmentPieces

/-- One segment is cut in two at an underscore. -/
inductive Cut : NamePath → NamePath → Prop
  | segment (front back : NamePath) (s t : String) :
    Cut (front ++ (s ++ "_" ++ t) :: back) (front ++ s :: t :: back)

abbrev Cuts : NamePath → NamePath → Prop := Relation.ReflTransGen Cut

@[simp]
theorem flatten_singleton (s : String) : flatten [s] = s := rfl

@[simp]
theorem flatten_cons_cons (s t : String) (path : NamePath) :
    flatten (s :: t :: path) = s ++ "_" ++ flatten (t :: path) := rfl

theorem segmentPieces_ne_nil (s : String) : segmentPieces s ≠ [] := by
  simp [segmentPieces, List.splitOn_ne_nil]

theorem segmentPieces_append (s t : String) :
    segmentPieces (s ++ "_" ++ t) = segmentPieces s ++ segmentPieces t := by
  have hlist : (s ++ "_" ++ t).toList = s.toList ++ '_' :: t.toList := by simp
  simp [segmentPieces, hlist, List.splitOn_append_cons_self]

theorem segmentPieces_of_not_mem {s : String} (h : '_' ∉ s.toList) : segmentPieces s = [s] := by
  simp [segmentPieces, List.splitOn_eq_singleton h]

theorem segmentPieces_flatten {path : NamePath} (h : path ≠ []) :
    segmentPieces path.flatten = path.pieces := by
  induction path with
  | nil => exact (h rfl).elim
  | cons s path ih =>
    cases path with
    | nil => simp [pieces]
    | cons t path =>
      rw [flatten_cons_cons, segmentPieces_append, ih (by simp)]
      rfl

theorem toList_flatten (path : NamePath) :
    path.flatten.toList = ['_'].intercalate (path.map String.toList) := by
  induction path with
  | nil => rfl
  | cons s path ih =>
    cases path with
    | nil => simp
    | cons t path => simp [ih, List.intercalate_cons_cons]

theorem flatten_segmentPieces (s : String) : flatten (segmentPieces s) = s := by
  apply String.toList_inj.1
  rw [toList_flatten, segmentPieces, List.map_map]
  have hid : String.toList ∘ String.ofList = id := by
    funext cs
    simp
  rw [hid, List.map_id, List.intercalate_splitOn]

theorem flatten_eq_iff {p q : NamePath} (hp : p ≠ []) (hq : q ≠ []) :
    p.flatten = q.flatten ↔ p.pieces = q.pieces := by
  rw [← segmentPieces_flatten hp, ← segmentPieces_flatten hq]
  constructor
  · intro h
    rw [h]
  · intro h
    rw [← flatten_segmentPieces p.flatten, h, flatten_segmentPieces]

theorem pieces_of_not_mem {path : NamePath} (h : ∀ s ∈ path, '_' ∉ s.toList) :
    path.pieces = path := by
  induction path with
  | nil => rfl
  | cons s path ih =>
    have hs := segmentPieces_of_not_mem (h s (by simp))
    have hpath := ih fun t ht => h t (by simp [ht])
    unfold pieces at hpath ⊢
    rw [List.flatMap_cons, hs, hpath]
    rfl

theorem not_mem_of_mem_splitOn {c : Char} {w s : List Char} (h : w ∈ s.splitOn c) : c ∉ w := by
  induction s generalizing w with
  | nil => simp_all
  | cons d s ih =>
    rw [List.splitOn_cons_eq_if_modifyHead] at h
    split at h
    · rcases List.mem_cons.1 h with rfl | h
      · simp
      · exact ih h
    · rename_i hd
      cases hsplit : s.splitOn c with
      | nil => exact (List.splitOn_ne_nil c s hsplit).elim
      | cons w' ws =>
        rw [hsplit, List.modifyHead_cons, List.mem_cons] at h
        rcases h with rfl | h
        · have hw' := ih (w := w') (by simp [hsplit])
          have hcd : c ≠ d := fun heq => hd (by simp [heq])
          simp [hcd, hw']
        · exact ih (by simp [hsplit, h])

theorem not_mem_of_mem_pieces {path : NamePath} {s : String} (h : s ∈ path.pieces) :
    '_' ∉ s.toList := by
  simp only [pieces, segmentPieces, List.mem_flatMap, List.mem_map] at h
  obtain ⟨segment, -, w, hw, rfl⟩ := h
  rw [String.toList_ofList]
  exact not_mem_of_mem_splitOn hw

theorem cuts_flatten (front back : NamePath) {segments : NamePath} (h : segments ≠ []) :
    Cuts (front ++ segments.flatten :: back) (front ++ segments ++ back) := by
  induction segments generalizing front with
  | nil => exact (h rfl).elim
  | cons s segments ih =>
    cases segments with
    | nil => simpa using Relation.ReflTransGen.refl
    | cons t segments =>
      have hrest := ih (front ++ [s]) (by simp)
      simp only [List.append_assoc, List.singleton_append] at hrest
      have hfirst : Cut (front ++ flatten (s :: t :: segments) :: back)
          (front ++ s :: flatten (t :: segments) :: back) := .segment front back s _
      simpa using Relation.ReflTransGen.head hfirst hrest

theorem cuts_pieces (path : NamePath) : Cuts path path.pieces := by
  suffices h : ∀ front : NamePath, Cuts (front ++ path) (front ++ path.pieces) from h []
  induction path with
  | nil => exact fun front => Relation.ReflTransGen.refl
  | cons s path ih =>
    intro front
    have hsegment := cuts_flatten front path (segmentPieces_ne_nil s)
    rw [flatten_segmentPieces] at hsegment
    have hrest := ih (front ++ segmentPieces s)
    refine hsegment.trans ?_
    simpa [pieces] using hrest

theorem pieces_eq_of_cut {p q : NamePath} (h : Cut p q) : p.pieces = q.pieces := by
  cases h with
  | segment front back s t => simp [pieces, segmentPieces_append]

theorem pieces_eq_of_cuts {p q : NamePath} (h : Cuts p q) : p.pieces = q.pieces := by
  induction h with
  | refl => rfl
  | tail _ hcut ih => rw [ih, pieces_eq_of_cut hcut]

/-- Two paths that group the same pieces into different segments. -/
structure Shifted (p q : NamePath) : Prop where
  ne : p ≠ q
  joined : ∃ s ∈ p ++ q, '_' ∈ s.toList
  common : ∃ r : NamePath, (∀ s ∈ r, '_' ∉ s.toList) ∧ Cuts p r ∧ Cuts q r

theorem eq_of_pieces_eq {p q : NamePath} (h : p.pieces = q.pieces)
    (hfree : ∀ s ∈ p ++ q, '_' ∉ s.toList) : p = q := by
  rw [pieces_of_not_mem fun s hs => hfree s (by simp [hs]),
    pieces_of_not_mem fun s hs => hfree s (by simp [hs])] at h
  exact h

theorem pieces_eq_iff_shifted {p q : NamePath} : p.pieces = q.pieces ↔ p = q ∨ Shifted p q := by
  constructor
  · intro h
    by_cases hne : p = q
    · exact .inl hne
    · refine .inr ⟨hne, ?_, p.pieces, fun s => not_mem_of_mem_pieces, cuts_pieces p, ?_⟩
      · refine Classical.byContradiction fun hfree => hne (eq_of_pieces_eq h ?_)
        intro s hs hmem
        exact hfree ⟨s, hs, hmem⟩
      · rw [h]
        exact cuts_pieces q
  · rintro (rfl | ⟨-, -, r, -, hp, hq⟩)
    · rfl
    · rw [pieces_eq_of_cuts hp, pieces_eq_of_cuts hq]

end NamePath

def Cursor.target? (c : Cursor) : Option NamePath := c.paths[c.index]?.map c.declared.merge

theorem Cursor.next?_name {c : Cursor} {p : NamePath} (h : c.target? = some p) :
    c.next?.map Prod.fst = some p.flatten := by
  obtain ⟨path, hpath, rfl⟩ := Option.map_eq_some_iff.1 h
  obtain ⟨hlt, rfl⟩ := List.getElem?_eq_some_iff.1 hpath
  rw [next?_of_lt hlt]
  rfl

/-- Paths share a name exactly if they have the same pieces. References that lead to paths without
underscores share one only if they lead to the same path; any others share one if they lead to the
same path, or to the same pieces with the boundaries of segments at other underscores. -/
theorem Cursor.references_share_name :
    (∀ p q : NamePath, p ≠ [] → q ≠ [] → (p.flatten = q.flatten ↔ p.pieces = q.pieces)) ∧
    ∀ (c d : Cursor) (p q : NamePath), c.target? = some p → d.target? = some q → p ≠ [] → q ≠ [] →
      ∃ m n, c.next?.map Prod.fst = some m ∧ d.next?.map Prod.fst = some n ∧
        ((∀ s ∈ p ++ q, '_' ∉ s.toList) → (m = n ↔ p = q)) ∧
        (m = n ↔ p = q ∨ p.Shifted q) := by
  refine ⟨fun p q => NamePath.flatten_eq_iff, fun c d p q hc hd hp hq => ?_⟩
  refine ⟨_, _, next?_name hc, next?_name hd, fun hfree => ⟨fun h => ?_, fun h => by rw [h]⟩, ?_⟩
  · exact NamePath.eq_of_pieces_eq ((NamePath.flatten_eq_iff hp hq).1 h) hfree
  · rw [NamePath.flatten_eq_iff hp hq, NamePath.pieces_eq_iff_shifted]

def Cursor.threeTables (index : Fin 3) : Cursor :=
  ⟨["d"], [["a_", "b"], ["a", "_b"], ["a", "b"]], index, Nat.le_of_lt index.isLt⟩

theorem Cursor.threeTables_shares_name :
    NamePath.Shifted ["d", "a_", "b"] ["d", "a", "_b"] ∧
      ¬ NamePath.Shifted ["d", "a_", "b"] ["d", "a", "b"] := by
  obtain ⟨m, n, hm, hn, -, hshared⟩ := references_share_name.2 (threeTables 0) (threeTables 1)
    ["d", "a_", "b"] ["d", "a", "_b"] rfl rfl (by simp) (by simp)
  obtain ⟨m', n', hm', hn', -, hother⟩ := references_share_name.2 (threeTables 0) (threeTables 2)
    ["d", "a_", "b"] ["d", "a", "b"] rfl rfl (by simp) (by simp)
  cases hm
  cases hn
  cases hm'
  cases hn'
  constructor
  · exact (hshared.1 (by decide)).resolve_left (by simp)
  · exact fun h => absurd (hother.2 (.inr h)) (by decide)

end ResolvedSql
