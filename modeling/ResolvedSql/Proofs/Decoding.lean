import ResolvedSql.Json.Decoder
import ResolvedSql.Proofs.Rearrangement
set_option autoImplicit false

namespace ResolvedSql

open Json

/-- Wherever fewer than `bound` brackets may still open, the decoder finds the value in every
rearrangement of the tree that fits. -/
def Decoder.Finds {α : Type} (item : Decoder α) (bound : Nat) (j : Json) (a : α) : Prop :=
  ∀ (p : Place) (k : Json), p.room < bound → j.fits p.room = true → Rearranged j k →
    item p k = some a

/-- The fields stand for rearrangements of the members, at a place with fewer than `bound` brackets
to open. -/
structure Fields.Holds (f : Fields) (bound : Nat) (ms : Members) : Prop where
  room : f.place.room < bound
  find : ∀ (field : String) (j : Json), (field, j) ∈ ms →
    j.fits f.place.room = true ∧ ∃ k, f.find? field = some k ∧ Rearranged j k

namespace Fields.Holds

variable {α β : Type} {f : Fields} {bound : Nat} {ms : Members} {field : String} {j : Json}
  {item : Decoder α} {a : α} {rest : α → Option β} {b : β}

theorem tail {m : String × Json} (h : f.Holds bound (m :: ms)) : f.Holds bound ms :=
  ⟨h.room, fun field j hmem => h.find field j (List.mem_cons_of_mem _ hmem)⟩

theorem required_eq (h : f.Holds bound ((field, j) :: ms)) (hitem : item.Finds bound j a) :
    f.required field item = some a := by
  obtain ⟨hfits, k, hfind, hk⟩ := h.find field j (List.mem_cons_self ..)
  rw [Fields.required, hfind]
  exact hitem f.place k h.room hfits hk

theorem optional_eq (h : f.Holds bound ((field, j) :: ms)) (hitem : item.Finds bound j a)
    (missing : α) : f.optional field missing item = some a := by
  obtain ⟨hfits, k, hfind, hk⟩ := h.find field j (List.mem_cons_self ..)
  rw [Fields.optional, hfind]
  exact hitem f.place k h.room hfits hk

theorem required (h : f.Holds bound ((field, j) :: ms)) (hitem : item.Finds bound j a)
    (hrest : f.Holds bound ms → rest a = some b) : f.required field item >>= rest = some b := by
  rw [h.required_eq hitem]
  exact hrest h.tail

theorem optional (h : f.Holds bound ((field, j) :: ms)) (hitem : item.Finds bound j a)
    (hrest : f.Holds bound ms → rest a = some b) {missing : α} :
    f.optional field missing item >>= rest = some b := by
  rw [h.optional_eq hitem]
  exact hrest h.tail

end Fields.Holds

namespace Decoder.Finds

variable {α : Type} {bound : Nat}

theorem mono {item : Decoder α} {j : Json} {a : α} {bound' : Nat} (h : item.Finds bound' j a)
    (hle : bound ≤ bound') : item.Finds bound j a :=
  fun p k hp => h p k (by omega)

theorem string (s : String) : Decoder.string.Finds bound (.string s) s := by
  intro p k _ _ hk
  cases hk
  rfl

theorem bool (b : Bool) : Decoder.bool.Finds bound (.bool b) b := by
  intro p k _ _ hk
  cases hk
  rfl

theorem integer {lo hi n : Int} (h : lo ≤ n ∧ n < hi) :
    (Decoder.integer lo hi).Finds bound (.int n) n := by
  intro p k _ _ hk
  cases hk
  exact if_pos h

theorem int32 (n : Int32) : Decoder.int32.Finds bound (.int n.toInt) n := by
  intro p k hp hfits hk
  have hrange : -0x80000000 ≤ n.toInt ∧ n.toInt < 0x80000000 := ⟨n.le_toInt, n.toInt_lt⟩
  simp [Decoder.int32, integer hrange p k hp hfits hk]

theorem int64 (n : Int64) : Decoder.int64.Finds bound (.int n.toInt) n := by
  intro p k hp hfits hk
  have hrange : -0x8000000000000000 ≤ n.toInt ∧ n.toInt < 0x8000000000000000 :=
    ⟨n.le_toInt, n.toInt_lt⟩
  simp [Decoder.int64, integer hrange p k hp hfits hk]

theorem uint8 (n : UInt8) : Decoder.uint8.Finds bound (.int n.toNat) n := by
  intro p k hp hfits hk
  have hrange : 0 ≤ (n.toNat : Int) ∧ (n.toNat : Int) < 0x100 := by
    have := n.toNat_lt
    omega
  simp [Decoder.uint8, integer hrange p k hp hfits hk]

theorem uint32 (n : UInt32) : Decoder.uint32.Finds bound (.int n.toNat) n := by
  intro p k hp hfits hk
  have hrange : 0 ≤ (n.toNat : Int) ∧ (n.toNat : Int) < 0x100000000 := by
    have := n.toNat_lt
    omega
  simp [Decoder.uint32, integer hrange p k hp hfits hk]

theorem uint64 (n : UInt64) : Decoder.uint64.Finds bound (.int n.toNat) n := by
  intro p k hp hfits hk
  have hrange : 0 ≤ (n.toNat : Int) ∧ (n.toNat : Int) < 0x10000000000000000 := by
    have := n.toNat_lt
    omega
  simp [Decoder.uint64, integer hrange p k hp hfits hk]

theorem document (d : Document) : Decoder.document.Finds bound d.json d := by
  intro p k _ hfits hk
  rw [Decoder.document, if_pos (hk.fits hfits)]
  exact Document.ofJson?_of_rearranged hk

theorem name (s : String) : Decoder.name.Finds bound (.string s) s := by
  intro p k _ _ hk
  cases hk
  rfl

theorem alternative {ofName? : String → Option α} {s : String} {a : α} (h : ofName? s = some a) :
    (Decoder.alternative ofName?).Finds bound (.string s) a := by
  intro p k hp hfits hk
  simp [Decoder.alternative, name s p k hp hfits hk, h]

theorem map {β : Type} {item : Decoder α} {j : Json} {a : α} (h : item.Finds bound j a)
    (g : α → β) : Decoder.Finds (fun p k => (item p k).map g) bound j (g a) := by
  intro p k hp hfits hk
  simp [h p k hp hfits hk]

theorem option {item : Decoder α} {toJson : α → Json} {o : Option α}
    (h : ∀ a ∈ o, item.Finds bound (toJson a) a ∧ toJson a ≠ .null) :
    (Decoder.option item).Finds bound (Json.option toJson o) o := by
  intro p k hp hfits hk
  cases o with
  | none =>
    cases hk
    rfl
  | some a =>
    obtain ⟨hitem, hnull⟩ := h a rfl
    have hread := hitem p k hp hfits hk
    have hk' : k ≠ .null := by
      rintro rfl
      generalize hj : Json.option toJson (some a) = j at hk
      cases hk
      exact hnull hj
    rw [Decoder.option, hread]
    · rfl
    · exact hk'

theorem mapM {item : Decoder α} {toJson : α → Json} {as : List α} {ks : List Json} {p : Place}
    (h : ∀ a ∈ as, item.Finds bound (toJson a) a) (hp : p.room < bound)
    (hfits : ∀ j ∈ as.map toJson, j.fits p.room = true)
    (items : List.Forall₂ Rearranged (as.map toJson) ks) : ks.mapM (item p) = some as := by
  induction as generalizing ks with
  | nil =>
    cases items
    rfl
  | cons a as ih =>
    cases items with
    | cons hfirst hrest =>
      rw [List.forall_mem_cons] at h
      rw [List.map_cons, List.forall_mem_cons] at hfits
      rw [List.mapM_cons, h.1 p _ hp hfits.1 hfirst, ih h.2 hfits.2 hrest]
      rfl

theorem list {item : Decoder α} {toJson : α → Json} {as : List α}
    (h : ∀ a ∈ as, item.Finds bound (toJson a) a) :
    (Decoder.list item).Finds bound (.array (as.map toJson)) as := by
  intro p k hp hfits hk
  obtain ⟨room, replayed⟩ := p
  cases room with
  | zero => cases hfits
  | succ room =>
    cases hk with
    | array items => exact mapM h (Nat.lt_of_succ_lt hp) (allFit_iff.1 hfits) items

theorem record {ms : Members} {names : List String} {body : Fields → Option α} {a : α}
    (hnames : ms.map (·.1) = names) (hnodup : names.Nodup)
    (h : ∀ f : Fields, f.Holds bound ms → body f = some a) :
    Decoder.Finds (fun p k => Fields.ofRecord? names p k >>= body) bound (.object ms) a := by
  intro p k hp hfits hk
  subst hnames
  obtain ⟨room, replayed⟩ := p
  cases room with
  | zero => cases hfits
  | succ room =>
    cases hk with
    | @object _ ns' ns members order =>
      have hkeys := Rearranged.keys_perm members order
      have hall : (ns.filter fun m => (ms.map (·.1)).contains m.1) = ns :=
        List.filter_eq_self.2 fun m hm =>
          List.contains_iff_mem.2 (hkeys.mem_iff.2 (List.mem_map_of_mem hm))
      have hknown : Fields.known? (ms.map (·.1)) ns = some ns := by
        rw [Fields.known?, hall, if_pos (hkeys.nodup_iff.1 hnodup)]
      have hholds : Fields.Holds ⟨⟨room, replayed⟩, ns⟩ bound ms := by
        refine ⟨by simp at hp ⊢; omega, fun field j hmem => ⟨membersFit_iff.1 hfits _ hmem, ?_⟩⟩
        exact Rearranged.lookup members order hnodup hmem
      simp [Fields.ofRecord?, Place.inside?, hknown, h _ hholds]

/-- The two members of a choice come in either order; a content met before its tag fits. -/
theorem tagged {tagKey contentKey tag : String} {tags : List String} {content : Json}
    {body : Tagged → Option α} {a : α} (hkeys : tagKey ≠ contentKey)
    (h : Decoder.Finds (fun p k => body ⟨tag, some (p, k)⟩) bound content a) :
    Decoder.Finds (fun p k => Tagged.ofJson? tagKey contentKey tags p k >>= body) (bound + 1)
      (.tagged tagKey tag contentKey content) a := by
  intro p k hp hfits hk
  obtain ⟨room, replayed⟩ := p
  cases room with
  | zero => cases hfits
  | succ room =>
    have hcontent : content.fits room = true :=
      membersFit_iff.1 hfits (contentKey, content) (by simp)
    have hread (replayed : Bool) {d : Json} (hd : Rearranged content d) :
        body ⟨tag, some (⟨room, replayed⟩, d)⟩ = some a :=
      h ⟨room, replayed⟩ d (Nat.lt_of_succ_lt_succ hp) hcontent hd
    cases hk with
    | object members order =>
      obtain _ | ⟨hm₁, hrest⟩ := members
      obtain _ | ⟨hm₂, hnil⟩ := hrest
      cases hnil
      obtain ⟨_, htag⟩ := hm₁
      obtain ⟨_, hd⟩ := hm₂
      cases htag
      rcases List.pair_perm.1 order with rfl | rfl
      · simp [Tagged.ofJson?, Place.inside?, Fields.known?, Decoder.name, hkeys, hread _ hd]
      · simp [Tagged.ofJson?, Place.inside?, Fields.known?, Decoder.name, hkeys.symm,
          hd.fits hcontent, hread _ hd]

theorem tagOnly {tagKey contentKey tag : String} {tags : List String}
    {body : Tagged → Option α} {a : α} (h : body ⟨tag, none⟩ = some a) :
    Decoder.Finds (fun p k => Tagged.ofJson? tagKey contentKey tags p k >>= body) bound
      (.tagOnly tagKey tag) a := by
  intro p k hp hfits hk
  obtain ⟨room, replayed⟩ := p
  cases room with
  | zero => cases hfits
  | succ room =>
    cases hk with
    | object members order =>
      obtain _ | ⟨hm, hnil⟩ := members
      cases hnil
      obtain ⟨_, htag⟩ := hm
      cases htag
      cases List.perm_singleton.1 order.symm
      simp [Tagged.ofJson?, Place.inside?, Fields.known?, Decoder.name, h]

end Decoder.Finds
end ResolvedSql
