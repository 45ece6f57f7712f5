import ResolvedSql.Json.Basic
set_option autoImplicit false

namespace ResolvedSql.Json

theorem ascending_cons (k : String) (v : Json) (r : Members) :
    ascending ((k, v) :: r) = true ↔
      (∀ m ∈ r.head?, Text.precedes k m.1 = true) ∧ ascending r = true := by
  cases r with
  | nil => simp [ascending]
  | cons m r => simp [ascending]

theorem head_insertMember (k : String) (v : Json) (ms : Members) (low : String)
    (hk : Text.precedes low k = true) (h : ∀ m ∈ ms.head?, Text.precedes low m.1 = true) :
    ∀ m ∈ (insertMember k v ms).head?, Text.precedes low m.1 = true := by
  cases ms with
  | nil => simp [insertMember, hk]
  | cons m r =>
    obtain ⟨k', v'⟩ := m
    simp only [insertMember]
    split
    · simp [hk]
    · split
      · simp [hk]
      · simpa using h

theorem ascending_insertMember (k : String) (v : Json) (ms : Members) (h : ascending ms = true) :
    ascending (insertMember k v ms) = true := by
  induction ms with
  | nil => simp [insertMember, ascending]
  | cons m r ih =>
    obtain ⟨k', v'⟩ := m
    obtain ⟨hhead, htail⟩ := (ascending_cons k' v' r).1 h
    simp only [insertMember]
    split
    · rename_i hlt; simpa [ascending_cons, hlt] using h
    · split
      · rename_i heq; subst heq; exact (ascending_cons k v r).2 ⟨hhead, htail⟩
      · rename_i hlt hne
        have hk : Text.precedes k' k = true :=
          Text.precedes_of_not_precedes (by simpa using hlt) hne
        exact (ascending_cons k' v' _).2 ⟨head_insertMember k v r k' hk hhead, ih htail⟩

theorem membersDocuments_insertMember (k : String) (v : Json) (ms : Members)
    (hv : v.isDocument = true) (h : membersDocuments ms = true) :
    membersDocuments (insertMember k v ms) = true := by
  induction ms with
  | nil => simp [insertMember, membersDocuments, hv]
  | cons m r ih =>
    obtain ⟨k', v'⟩ := m
    simp only [membersDocuments, Bool.and_eq_true] at h
    simp only [insertMember]
    split
    · simp [membersDocuments, hv, h]
    · split
      · simp [membersDocuments, hv, h]
      · simp [membersDocuments, h.1, ih h.2]

mutual
theorem isDocument_of_document? : (j d : Json) → document? j = some d → d.isDocument = true
  | .null, d, h => by simp [document?] at h; simp [← h, isDocument]
  | .bool _, d, h => by simp [document?] at h; simp [← h, isDocument]
  | .string _, d, h => by simp [document?] at h; simp [← h, isDocument]
  | .number n, d, h => by
    simp only [document?] at h
    split at h
    · rename_i hn; cases h; simpa [isDocument] using hn
    · cases h
  | .array items, d, h => by
    simp only [document?, Option.map_eq_some_iff] at h
    obtain ⟨ds, hds, rfl⟩ := h
    simpa [isDocument] using allDocuments_of_documents? items ds hds
  | .object members, d, h => by
    simp only [document?, Option.map_eq_some_iff] at h
    obtain ⟨ms, hms, rfl⟩ := h
    simpa [isDocument] using
      sorted_of_memberDocuments? members [] ms (by simp [ascending])
        (by simp [membersDocuments]) hms
  | .unreadable, d, h => by simp [document?] at h
theorem allDocuments_of_documents? : (js ds : List Json) → documents? js = some ds →
    allDocuments ds = true
  | [], ds, h => by simp [documents?] at h; simp [h, allDocuments]
  | j :: r, ds, h => by
    simp only [documents?, Option.bind_eq_bind, Option.bind_eq_some_iff, Option.pure_def,
      Option.some.injEq] at h
    obtain ⟨d, hd, ds', hds, rfl⟩ := h
    simp [allDocuments, isDocument_of_document? j d hd, allDocuments_of_documents? r ds' hds]
theorem sorted_of_memberDocuments? : (ms sorted ds : Members) → ascending sorted = true →
    membersDocuments sorted = true → memberDocuments? ms sorted = some ds →
    ascending ds = true ∧ membersDocuments ds = true
  | [], sorted, ds, ha, hm, h => by simp [memberDocuments?] at h; exact h ▸ ⟨ha, hm⟩
  | (k, j) :: r, sorted, ds, ha, hm, h => by
    simp only [memberDocuments?, Option.bind_eq_bind, Option.bind_eq_some_iff] at h
    obtain ⟨d, hd, hr⟩ := h
    exact sorted_of_memberDocuments? r (insertMember k d sorted) ds
      (ascending_insertMember k d sorted ha)
      (membersDocuments_insertMember k d sorted (isDocument_of_document? j d hd) hm) hr
end

end ResolvedSql.Json

namespace ResolvedSql

def Document.ofJson? (j : Json) : Option Document :=
  match h : j.document? with
  | none => none
  | some d => some ⟨d, Json.isDocument_of_document? j d h⟩

end ResolvedSql
