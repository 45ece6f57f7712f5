import Mathlib.Data.List.Permutation
import ResolvedSql.Json.Document
import ResolvedSql.Proofs.JsonText
set_option autoImplicit false

namespace ResolvedSql

theorem Text.before_trans {a b c : List Char} (hab : before a b = true) (hbc : before b c = true) :
    before a c = true := by
  induction a generalizing b c with
  | nil =>
    cases c with
    | nil => cases b <;> simp [before] at hbc
    | cons e t => rfl
  | cons x r ih =>
    cases b with
    | nil => simp [before] at hab
    | cons y s =>
      cases c with
      | nil => simp [before] at hbc
      | cons z t =>
        simp only [before, Bool.or_eq_true, decide_eq_true_eq, Bool.and_eq_true] at hab hbc ⊢
        rcases hab with hab | ⟨rfl, hab⟩ <;> rcases hbc with hbc | ⟨rfl, hbc⟩
        · exact .inl (hab.trans hbc)
        · exact .inl hab
        · exact .inl hbc
        · exact .inr ⟨rfl, ih hab hbc⟩

theorem Text.before_irrefl (a : List Char) : before a a = false := by
  induction a with
  | nil => rfl
  | cons c r ih => simp [before, ih]

theorem Text.ne_of_precedes {a b : String} (h : precedes a b = true) : a ≠ b := by
  rintro rfl
  simp [precedes, before_irrefl] at h

theorem Text.not_precedes_of_precedes {a b : String} (h : precedes a b = true) :
    ¬ precedes b a = true := by
  intro h'
  have hrefl := before_trans h h'
  simp [before_irrefl] at hrefl

theorem exists_mem_of_forall₂ {α β : Type} {R : α → β → Prop} {as : List α} {bs : List β}
    (h : List.Forall₂ R as bs) {b : β} (hb : b ∈ bs) : ∃ a ∈ as, R a b := by
  induction h with
  | nil => cases hb
  | @cons a b' as bs hab _ ih =>
    rcases List.mem_cons.1 hb with rfl | hb
    · exact ⟨a, List.mem_cons_self .., hab⟩
    · obtain ⟨a', ha', hrel⟩ := ih hb
      exact ⟨a', List.mem_cons_of_mem _ ha', hrel⟩

namespace Json

def parts : Json → List Json
  | .array items => items
  | .object members => members.map (·.2)
  | _ => []

theorem sizeOf_lt_of_mem_parts {c j : Json} (h : c ∈ j.parts) : sizeOf c < sizeOf j := by
  cases j with
  | array items =>
    have : sizeOf c < sizeOf items := List.sizeOf_lt_of_mem h
    simp only [Json.array.sizeOf_spec]
    omega
  | object members =>
    obtain ⟨⟨key, c⟩, hm, rfl⟩ := List.mem_map.1 h
    have := List.sizeOf_lt_of_mem hm
    simp only [Prod.mk.sizeOf_spec, Json.object.sizeOf_spec] at *
    omega
  | null | bool _ | number _ | string _ | unreadable => cases h

theorem induction {P : Json → Prop} (step : ∀ j : Json, (∀ c ∈ j.parts, P c) → P j) (j : Json) :
    P j :=
  step j fun c _ => induction step c
termination_by sizeOf j
decreasing_by exact sizeOf_lt_of_mem_parts ‹_›

theorem allFit_iff {js : List Json} {room : Nat} :
    allFit js room = true ↔ ∀ j ∈ js, j.fits room = true := by
  induction js with
  | nil => simp [allFit]
  | cons j js ih => simp [allFit, ih]

theorem membersFit_iff {ms : Members} {room : Nat} :
    membersFit ms room = true ↔ ∀ m ∈ ms, m.2.fits room = true := by
  induction ms with
  | nil => simp [membersFit]
  | cons m ms ih => simp [membersFit, ih]

theorem allExact_iff {js : List Json} : allExact js = true ↔ ∀ j ∈ js, j.isExact = true := by
  induction js with
  | nil => simp [allExact]
  | cons j js ih => simp [allExact, ih]

theorem membersExact_iff {ms : Members} :
    membersExact ms = true ↔ ∀ m ∈ ms, m.2.isExact = true := by
  induction ms with
  | nil => simp [membersExact]
  | cons m ms ih => simp [membersExact, ih]

mutual
def depth : Json → Nat
  | .array items => itemsDepth items + 1
  | .object members => membersDepth members + 1
  | _ => 0
def itemsDepth : List Json → Nat
  | [] => 0
  | j :: r => max j.depth (itemsDepth r)
def membersDepth : Members → Nat
  | [] => 0
  | (_, j) :: r => max j.depth (membersDepth r)
end

theorem depth_le_itemsDepth {j : Json} {js : List Json} (h : j ∈ js) :
    j.depth ≤ itemsDepth js := by
  induction js with
  | nil => cases h
  | cons i js ih =>
    rw [itemsDepth]
    rcases List.mem_cons.1 h with rfl | h
    · omega
    · have := ih h
      omega

theorem depth_le_membersDepth {m : String × Json} {ms : Members} (h : m ∈ ms) :
    m.2.depth ≤ membersDepth ms := by
  induction ms with
  | nil => cases h
  | cons i ms ih =>
    rw [membersDepth]
    rcases List.mem_cons.1 h with rfl | h
    · omega
    · have := ih h
      omega

theorem fits_of_depth_le {j : Json} {room : Nat} (hexact : j.isExact = true)
    (hdepth : j.depth ≤ room) : j.fits room = true := by
  induction j using Json.induction generalizing room with
  | step j ih =>
    cases j with
    | null | bool _ | number _ | string _ => rfl
    | unreadable => cases hexact
    | array items =>
      rw [depth] at hdepth
      obtain ⟨room, rfl⟩ : ∃ r, room = r + 1 := ⟨room - 1, by omega⟩
      refine allFit_iff.2 fun j hj => ih j hj (allExact_iff.1 hexact j hj) ?_
      have := depth_le_itemsDepth hj
      omega
    | object members =>
      rw [depth] at hdepth
      obtain ⟨room, rfl⟩ : ∃ r, room = r + 1 := ⟨room - 1, by omega⟩
      refine membersFit_iff.2 fun m hm =>
        ih m.2 (List.mem_map_of_mem hm) (membersExact_iff.1 hexact m hm) ?_
      have := depth_le_membersDepth hm
      omega

inductive SameKey (R : Json → Json → Prop) : String × Json → String × Json → Prop
  | intro (key : String) {j k : Json} (value : R j k) : SameKey R (key, j) (key, k)

/-- The second tree is the first one with the members of its objects in any order, at any depth. -/
inductive Rearranged : Json → Json → Prop
  | null : Rearranged .null .null
  | bool (b : Bool) : Rearranged (.bool b) (.bool b)
  | number (n : Number) : Rearranged (.number n) (.number n)
  | string (s : String) : Rearranged (.string s) (.string s)
  | unreadable : Rearranged .unreadable .unreadable
  | array {js ks : List Json} (items : List.Forall₂ Rearranged js ks) :
    Rearranged (.array js) (.array ks)
  | object {ms ns' ns : Members}
    (members : List.Forall₂ (SameKey Rearranged) ms ns')
    (order : ns'.Perm ns) : Rearranged (.object ms) (.object ns)

namespace Rearranged

theorem refl (j : Json) : Rearranged j j := by
  induction j using Json.induction with
  | step j ih =>
    cases j with
    | null => exact .null
    | bool b => exact .bool b
    | number n => exact .number n
    | string s => exact .string s
    | unreadable => exact .unreadable
    | array items => exact .array (List.forall₂_same.2 ih)
    | object members =>
      exact .object (List.forall₂_same.2 fun m hm => .intro m.1 (ih m.2 (List.mem_map_of_mem hm)))
        (List.Perm.refl _)

theorem of_perm {ms ns : Members} (h : ms.Perm ns) : Rearranged (.object ms) (.object ns) :=
  .object (List.forall₂_same.2 fun m _ => .intro m.1 (refl m.2)) h

theorem exists_part {j k : Json} (h : Rearranged j k) {d : Json} (hd : d ∈ k.parts) :
    ∃ c ∈ j.parts, Rearranged c d := by
  cases h with
  | null | bool _ | number _ | string _ | unreadable => cases hd
  | array items => exact exists_mem_of_forall₂ items hd
  | object members order =>
    obtain ⟨n, hn, rfl⟩ := List.mem_map.1 hd
    obtain ⟨m, hm, key, hrel⟩ := exists_mem_of_forall₂ members (order.mem_iff.2 hn)
    exact ⟨_, List.mem_map_of_mem hm, hrel⟩

theorem isExact {j k : Json} (h : Rearranged j k) (hj : j.isExact = true) : k.isExact = true := by
  induction j using Json.induction generalizing k with
  | step j ih =>
    have hpart := @h.exists_part
    cases h with
    | null | bool _ | number _ | string _ | unreadable => exact hj
    | array items =>
      refine allExact_iff.2 fun d hd => ?_
      obtain ⟨c, hc, hrel⟩ := hpart hd
      exact ih c hc hrel (allExact_iff.1 hj c hc)
    | object members order =>
      refine membersExact_iff.2 fun n hn => ?_
      obtain ⟨c, hc, hrel⟩ := hpart (List.mem_map_of_mem hn)
      obtain ⟨m, hm, rfl⟩ := List.mem_map.1 hc
      exact ih m.2 hc hrel (membersExact_iff.1 hj m hm)

theorem fits {j k : Json} {room : Nat} (h : Rearranged j k) (hj : j.fits room = true) :
    k.fits room = true := by
  induction j using Json.induction generalizing k room with
  | step j ih =>
    have hpart := @h.exists_part
    cases h with
    | null | bool _ | number _ | string _ | unreadable => exact hj
    | array items =>
      cases room with
      | zero => cases hj
      | succ room =>
        refine allFit_iff.2 fun d hd => ?_
        obtain ⟨c, hc, hrel⟩ := hpart hd
        exact ih c hc hrel (allFit_iff.1 hj c hc)
    | object members order =>
      cases room with
      | zero => cases hj
      | succ room =>
        refine membersFit_iff.2 fun n hn => ?_
        obtain ⟨c, hc, hrel⟩ := hpart (List.mem_map_of_mem hn)
        obtain ⟨m, hm, rfl⟩ := List.mem_map.1 hc
        exact ih m.2 hc hrel (membersFit_iff.1 hj m hm)

end Rearranged

theorem lookup_of_mem {ms : Members} (hnodup : (ms.map (·.1)).Nodup) {key : String} {j : Json}
    (h : (key, j) ∈ ms) : ms.lookup key = some j := by
  induction ms with
  | nil => cases h
  | cons m ms ih =>
    obtain ⟨key', j'⟩ := m
    simp only [List.map_cons, List.nodup_cons] at hnodup
    rw [List.lookup_cons]
    rcases List.mem_cons.1 h with heq | hmem
    · obtain ⟨rfl, rfl⟩ := Prod.mk.inj heq
      simp
    · have hne : key ≠ key' := by
        rintro rfl
        exact hnodup.1 (List.mem_map_of_mem hmem)
      rw [beq_false_of_ne hne]
      exact ih hnodup.2 hmem

theorem Rearranged.keys_perm {ms ns' ns : Members}
    (members : List.Forall₂ (SameKey Rearranged) ms ns') (order : ns'.Perm ns) :
    (ms.map (·.1)).Perm (ns.map (·.1)) := by
  have hkeys : ms.map (·.1) = ns'.map (·.1) := by
    induction members generalizing ns with
    | nil => rfl
    | cons h _ ih =>
      obtain ⟨key, -⟩ := h
      simp [ih (List.Perm.refl _)]
  rw [hkeys]
  exact order.map _

theorem Rearranged.lookup {ms ns' ns : Members} (members : List.Forall₂ (SameKey Rearranged) ms ns')
    (order : ns'.Perm ns) (hnodup : (ms.map (·.1)).Nodup) {key : String} {j : Json}
    (h : (key, j) ∈ ms) : ∃ k, ns.lookup key = some k ∧ Rearranged j k := by
  obtain ⟨n, hn, hkey⟩ := exists_mem_of_forall₂ members.flip h
  obtain ⟨key, hvalue⟩ := hkey
  exact ⟨_, lookup_of_mem ((keys_perm members order).nodup_iff.1 hnodup) (order.mem_iff.1 hn),
    hvalue⟩

theorem ascending_iff {ms : Members} :
    ascending ms = true ↔ ms.Pairwise fun m n => Text.precedes m.1 n.1 = true := by
  induction ms with
  | nil => simp [ascending]
  | cons m ms ih =>
    rw [ascending_cons, ih, List.pairwise_cons]
    refine and_congr_left fun hms => ⟨fun hhead n hn => ?_, fun h n hn => h n ?_⟩
    · cases ms with
      | nil => cases hn
      | cons m' ms =>
        have hm' : Text.precedes m.1 m'.1 = true := hhead m' rfl
        rcases List.mem_cons.1 hn with rfl | hn
        · exact hm'
        · exact Text.before_trans hm' ((List.pairwise_cons.1 hms).1 n hn)
    · exact List.mem_of_mem_head? hn

theorem eq_of_perm_of_ascending {ms ns : Members} (h : ms.Perm ns) (hms : ascending ms = true)
    (hns : ascending ns = true) : ms = ns :=
  h.eq_of_pairwise (fun _ _ _ _ hab hba => (Text.not_precedes_of_precedes hab hba).elim)
    (ascending_iff.1 hms) (ascending_iff.1 hns)

theorem nodup_of_ascending {ms : Members} (h : ascending ms = true) : (ms.map (·.1)).Nodup :=
  List.pairwise_map.2 ((ascending_iff.1 h).imp Text.ne_of_precedes)

theorem insertMember_perm {k : String} {ms : Members} (hk : k ∉ ms.map (·.1)) (v : Json) :
    (insertMember k v ms).Perm ((k, v) :: ms) := by
  induction ms with
  | nil => exact List.Perm.refl _
  | cons m ms ih =>
    simp only [List.map_cons, List.mem_cons, not_or] at hk
    simp only [insertMember]
    split
    · exact List.Perm.refl _
    · rw [if_neg hk.1]
      exact ((ih hk.2).cons m).trans (.swap ..)

theorem memberDocuments?_eq_some {ns ds sorted : Members}
    (h : List.Forall₂ (SameKey fun j d => j.document? = some d) ns ds)
    (hnodup : ((sorted ++ ds).map (·.1)).Nodup) (hsorted : ascending sorted = true) :
    ∃ r, memberDocuments? ns sorted = some r ∧ r.Perm (sorted ++ ds) ∧ ascending r = true := by
  induction h generalizing sorted with
  | nil => exact ⟨sorted, rfl, by simp, hsorted⟩
  | cons hd _ ih =>
    obtain @⟨key, j, d, hd⟩ := hd
    rename_i ns ds _
    have hnodup' := hnodup
    simp only [List.map_append, List.map_cons, List.nodup_middle, List.nodup_cons, List.mem_append,
      not_or] at hnodup'
    have hperm : (insertMember key d sorted ++ ds).Perm (sorted ++ (key, d) :: ds) :=
      ((insertMember_perm hnodup'.1.1 d).append_right ds).trans List.perm_middle.symm
    obtain ⟨r, hr, hrperm, hasc⟩ := ih ((hperm.map (·.1)).nodup_iff.2 hnodup)
      (ascending_insertMember key d sorted hsorted)
    refine ⟨r, ?_, hrperm.trans hperm, hasc⟩
    rw [memberDocuments?, hd]
    exact hr

theorem documents?_eq_some {ds ks : List Json}
    (h : List.Forall₂ (fun d k => document? k = some d) ds ks) : documents? ks = some ds := by
  induction h with
  | nil => rfl
  | cons hd _ ih => simp [documents?, hd, ih]

theorem allDocuments_iff {js : List Json} :
    allDocuments js = true ↔ ∀ j ∈ js, j.isDocument = true := by
  induction js with
  | nil => simp [allDocuments]
  | cons j js ih => simp [allDocuments, ih]

theorem membersDocuments_iff {ms : Members} :
    membersDocuments ms = true ↔ ∀ m ∈ ms, m.2.isDocument = true := by
  induction ms with
  | nil => simp [membersDocuments]
  | cons m ms ih => simp [membersDocuments, ih]

theorem forall₂_imp_of_mem {α β : Type} {R S : α → β → Prop} {as : List α} {bs : List β}
    (h : List.Forall₂ R as bs) (himp : ∀ a ∈ as, ∀ b, R a b → S a b) : List.Forall₂ S as bs := by
  induction h with
  | nil => exact .nil
  | @cons a b as bs hab _ ih =>
    exact .cons (himp a (List.mem_cons_self ..) b hab)
      (ih fun a' ha' => himp a' (List.mem_cons_of_mem _ ha'))

theorem document?_of_rearranged {d k : Json} (hd : d.isDocument = true) (h : Rearranged d k) :
    k.document? = some d := by
  induction d using Json.induction generalizing k with
  | step d ih =>
    cases h with
    | null | bool _ | string _ => rfl
    | unreadable => cases hd
    | number n => exact if_pos hd
    | @array ds ks items =>
      have hitems : List.Forall₂ (fun d k => document? k = some d) ds ks :=
        forall₂_imp_of_mem items fun d hmem k hk => ih d hmem (allDocuments_iff.1 hd d hmem) hk
      rw [document?, documents?_eq_some hitems]
      rfl
    | @object ds ns' ns members order =>
      rw [isDocument, Bool.and_eq_true] at hd
      have hmembers : List.Forall₂ (fun m n => SameKey (fun j d => document? j = some d) n m)
          ds ns' := by
        refine forall₂_imp_of_mem members fun m hm n hn => ?_
        obtain ⟨key, hvalue⟩ := hn
        exact .intro key (ih _ (List.mem_map_of_mem hm) (membersDocuments_iff.1 hd.2 _ hm) hvalue)
      obtain ⟨ds', hds', hperm⟩ := List.perm_comp_forall₂ order.symm hmembers.flip
      have hnodup : ((([] : Members) ++ ds').map (·.1)).Nodup :=
        (hperm.map (·.1)).nodup_iff.2 (nodup_of_ascending hd.1)
      obtain ⟨r, hr, hrperm, hasc⟩ := memberDocuments?_eq_some hds' hnodup rfl
      rw [document?, hr, eq_of_perm_of_ascending (hrperm.trans hperm) hasc hd.1]
      rfl

end Json

theorem Document.ofJson?_of_rearranged {d : Document} {k : Json} (h : Json.Rearranged d.json k) :
    Document.ofJson? k = some d := by
  have hdoc := Json.document?_of_rearranged d.isDocument h
  unfold Document.ofJson?
  split
  · rename_i hnone
    simp [hdoc] at hnone
  · rename_i d' hd'
    obtain rfl : d.json = d' := Option.some.inj (hdoc.symm.trans hd')
    rfl

end ResolvedSql
